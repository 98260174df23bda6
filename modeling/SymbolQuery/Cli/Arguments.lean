/-
The command line: which command is meant, with which arguments.

The commands form a tree, and each level of it has options, at most one positional
argument, or further commands. Arguments are read from left to right, one level after
the other. An option's value is looked at when the next argument is, so the fault
that is reported is the first one in this order of reading. The two options that all
levels share count from the innermost level at which they are given.
-/
import SymbolQuery.Hierarchy
import SymbolQuery.Lookup.Question
import SymbolQuery.Symbol.Children

set_option autoImplicit false

namespace SymbolQuery.Cli

/-! ## Commands -/

/-- How answers are printed. -/
inductive Format
  | table
  | json
  deriving DecidableEq, Repr, Inhabited

/-- The name of a format. -/
def Format.name : Format → String
  | .table => "table"
  | .json => "json"

/-- What is to be done. -/
inductive Command
  | resolve (reference : String)
  | locations (query : LocationQuery) (reference : String)
  | hover (reference : String)
  | hierarchy (kind : HierarchyKind) (reference : String)
  | symbols (file : String)
  | children (reference : String) (depth : Option ChildDepth)
  | configInit (useGlobal force : Bool)
  | configShow (useGlobal : Bool)
  | configPath (useGlobal : Bool)
  deriving DecidableEq, Repr, Inhabited

/-- A command with the options that all commands share. -/
structure Invocation where
  command : Command
  root : Option String
  format : Format
  deriving DecidableEq, Repr, Inhabited

/-- Why arguments are no invocation. -/
inductive ArgumentFault
  | displayHelp
  /-- The version is asked for, of the command with these names. -/
  | displayVersion (path : List String)
  | helpForMissing
  | invalidSubcommand
  | unknownArgument
  | invalidValue
  | valueValidation
  | missingRequired
  | missingSubcommand
  | conflict
  | tooManyValues
  deriving DecidableEq, Repr

/-- The name of a fault. -/
def ArgumentFault.name : ArgumentFault → String
  | .displayHelp => "DisplayHelp"
  | .displayVersion _ => "DisplayVersion"
  | .helpForMissing => "DisplayHelpOnMissingArgumentOrSubcommand"
  | .invalidSubcommand => "InvalidSubcommand"
  | .unknownArgument => "UnknownArgument"
  | .invalidValue => "InvalidValue"
  | .valueValidation => "ValueValidation"
  | .missingRequired => "MissingRequiredArgument"
  | .missingSubcommand => "MissingSubcommand"
  | .conflict => "ArgumentConflict"
  | .tooManyValues => "TooManyValues"

/-! ## The tree of commands -/

/-- What an option does. -/
inductive OptionKind
  /-- It takes a value, which has to pass a check. -/
  | value (check : String → Except ArgumentFault Unit)
  | flag
  | help
  | version

/-- An option with its long name and, if it has one, its short one. -/
structure OptionSpec where
  long : String
  short : Option Char
  kind : OptionKind

/-- A level of the command line. -/
inductive CommandSpec
  /-- A level with further commands. -/
  | group (name : String) (options : List OptionSpec) (commands : List CommandSpec)
  /-- A level without; `positional` tells whether one positional argument is required. -/
  | leaf (name : String) (options : List OptionSpec) (positional : Bool)

namespace CommandSpec

/-- The name of a level. -/
def name : CommandSpec → String
  | .group name _ _ => name
  | .leaf name _ _ => name

/-- The options of a level. -/
def options : CommandSpec → List OptionSpec
  | .group _ options _ => options
  | .leaf _ options _ => options

/-- The commands of a level. -/
def commands : CommandSpec → List CommandSpec
  | .group _ _ commands => commands
  | .leaf _ _ _ => []

/-- Whether a level has a positional argument. -/
def hasPositional : CommandSpec → Bool
  | .group _ _ _ => false
  | .leaf _ _ positional => positional

/-- Whether a level has further commands. -/
def isGroup : CommandSpec → Bool
  | .group _ _ _ => true
  | .leaf _ _ _ => false

/-- The command of a name on the next level. -/
def find? (c : CommandSpec) (name : String) : Option CommandSpec :=
  c.commands.find? fun d => d.name == name

end CommandSpec

/-- A path is any text but the empty one. -/
def checkPath (s : String) : Except ArgumentFault Unit :=
  if s.isEmpty then .error .invalidValue else .ok ()

/-- A format is one of the two names. -/
def checkFormat (s : String) : Except ArgumentFault Unit :=
  if s == "table" || s == "json" then .ok () else .error .invalidValue

/-- A depth is what `ChildDepth.ofText` reads. -/
def checkDepth (s : String) : Except ArgumentFault Unit :=
  match ChildDepth.ofText s with
  | .ok _ => .ok ()
  | .error _ => .error .valueValidation

/-- The options that all levels have. -/
def sharedOptions : List OptionSpec :=
  [⟨"root", none, .value checkPath⟩, ⟨"format", none, .value checkFormat⟩,
    ⟨"help", some 'h', .help⟩, ⟨"version", some 'V', .version⟩]

/-- A command with a reference. -/
def referenceCommand (name : String) : CommandSpec := .leaf name sharedOptions true

/-- The option that means the settings of the user instead of those of the project. -/
def globalFlag : OptionSpec := ⟨"global", none, .flag⟩

/-- The tree of commands. -/
def commandTree : CommandSpec :=
  .group "symlens" sharedOptions
    (["resolve", "symbols", "refs", "def", "decl", "typedef", "impl", "hover", "calls", "types"].map
        referenceCommand
      ++ [.leaf "children" (⟨"depth", none, .value checkDepth⟩ :: sharedOptions) true,
        .group "config" sharedOptions
          [.leaf "init" ([globalFlag, ⟨"force", some 'f', .flag⟩] ++ sharedOptions) false,
            .leaf "show" (globalFlag :: sharedOptions) false,
            .leaf "path" (globalFlag :: sharedOptions) false]])

/-! ## Reading one level -/

/-- What a level was given so far. -/
structure Level where
  /-- Options with their values; that of a flag is empty. -/
  given : List (String × String) := []
  positional : Option String := none
  /-- An option whose value, if it came, is not yet looked at. -/
  pending : Option (OptionSpec × Option String) := none
  /-- Whether only positional arguments can follow. -/
  trailing : Bool := false

namespace Level

/-- Records an option that was given; a second time is a conflict. -/
def record (l : Level) (o : OptionSpec) (value : String) : Except ArgumentFault Level :=
  if l.given.any fun g => g.1 == o.long then .error .conflict
  else
    let l' := { l with given := l.given ++ [(o.long, value)] }
    match o.kind with
    | .value check => (check value).map fun _ => l'
    | _ => .ok l'

/-- Looks at the value of the pending option. -/
def settle (l : Level) : Except ArgumentFault Level :=
  match l.pending with
  | none => .ok l
  | some (_, none) => .error .invalidValue
  | some (o, some value) => { l with pending := none }.record o value

/-- Whether the next argument is the value of the pending option. -/
def awaitsValue (l : Level) : Bool :=
  match l.pending with
  | some (_, none) => true
  | _ => false

/-- Acts on an option without a value of its own. -/
def act (l : Level) (path : List String) (o : OptionSpec) : Except ArgumentFault Level := do
  let l ← l.settle
  match o.kind with
  | .help => .error .displayHelp
  | .version => .error (.displayVersion path)
  | _ => l.record o ""

/-- Reads `--name` or `--name=value`. -/
def long (l : Level) (path : List String) (options : List OptionSpec) (arg : List Char) :
    Except ArgumentFault Level :=
  let (name, value) :=
    match Text.splitFirst? (· = '=') arg with
    | some (n, v) => (String.ofList n, some (String.ofList v))
    | none => (String.ofList arg, none)
  match options.find? fun o => o.long == name with
  | none => .error .unknownArgument
  | some o =>
    match o.kind, value with
    | .value _, some v => do
      let l ← l.settle
      l.record o v
    | .value _, none => do
      let l ← l.settle
      return { l with pending := some (o, none) }
    | _, some _ => .error .tooManyValues
    | _, none => l.act path o

/-- Reads the letters behind a single dash. -/
def short (path : List String) (options : List OptionSpec) :
    Level → List Char → Except ArgumentFault Level
  | l, [] => .ok l
  | l, c :: rest =>
    match options.find? fun o => o.short == some c with
    | none => .error .unknownArgument
    | some o => do
      let l ← l.act path o
      short path options l rest

/-- Ends a level: what is pending is looked at and what is required has to be there. -/
def finish (l : Level) (spec : CommandSpec) (hasSub : Bool) : Except ArgumentFault Level := do
  let l ← l.settle
  if spec.isGroup && !hasSub then
    if l.given.isEmpty then .error .helpForMissing else .error .missingSubcommand
  else if spec.hasPositional && l.positional.isNone then .error .missingRequired
  else return l

end Level

/-! ## Reading all levels -/

/-- Reads the names behind the word `help`. -/
def readHelp : CommandSpec → List String → ArgumentFault
  | _, [] => .displayHelp
  | spec, name :: rest =>
    match spec.find? name with
    | some sub => readHelp sub rest
    | none => if spec.isGroup && name == "help" && rest.isEmpty then .displayHelp
      else .invalidSubcommand

/-- An argument that is no command, option or value. -/
def surplus (spec : CommandSpec) (l : Level) (arg : String) : ArgumentFault :=
  if l.trailing && (spec.find? arg).isSome then .unknownArgument
  else if spec.isGroup then .invalidSubcommand
  else .unknownArgument

/-- Takes a positional argument. -/
def takePositional (spec : CommandSpec) (l : Level) (arg : String) : Except ArgumentFault Level :=
  if spec.hasPositional && l.positional.isNone then do
    let l ← l.settle
    return { l with positional := some arg }
  else .error (surplus spec l arg)

/-- Reads the arguments of a level and of those below it; the levels with their names, the outermost
first. -/
def readLevels (path : List String) (spec : CommandSpec) :
    Level → List String → Except ArgumentFault (List (String × Level))
  | l, [] => do
    let l ← l.finish spec false
    return [(spec.name, l)]
  | l, arg :: rest =>
    if l.trailing then
      match takePositional spec l arg with
      | .error e => .error e
      | .ok l => readLevels path spec l rest
    else
      let sub := if l.awaitsValue then none else spec.find? arg
      match sub with
      | some sub => do
        let below ← readLevels (path ++ [sub.name]) sub {} rest
        let l ← l.finish spec true
        return (spec.name, l) :: below
      | none =>
        if !l.awaitsValue && spec.isGroup && arg == "help" then .error (readHelp spec rest)
        else
          let next : Except ArgumentFault Level :=
            match arg.toList with
            | ['-', '-'] => .ok { l with trailing := true }
            | '-' :: '-' :: name => l.long path spec.options name
            | '-' :: c :: letters => Level.short path spec.options l (c :: letters)
            | _ =>
              match l.pending with
              | some (o, none) => .ok { l with pending := some (o, some arg) }
              | _ => takePositional spec l arg
          match next with
          | .error e => .error e
          | .ok l => readLevels path spec l rest
termination_by _ args => args.length

/-! ## The invocation -/

/-- The value of an option at the innermost level that gives it. -/
def innermost (levels : List (String × Level)) (option : String) : Option String :=
  levels.reverse.findSome? fun l => l.2.given.lookup option

/-- Whether the innermost level has a flag. -/
def hasFlag (l : Level) (flag : String) : Bool := l.given.any fun g => g.1 == flag

/-- The command of levels. -/
def commandOf (names : List String) (l : Level) : Option Command :=
  let reference := l.positional.getD ""
  match names with
  | ["resolve"] => some (.resolve reference)
  | ["symbols"] => some (.symbols reference)
  | ["refs"] => some (.locations .references reference)
  | ["def"] => some (.locations .definition reference)
  | ["decl"] => some (.locations .declaration reference)
  | ["typedef"] => some (.locations .typeDefinition reference)
  | ["impl"] => some (.locations .implementation reference)
  | ["hover"] => some (.hover reference)
  | ["calls"] => some (.hierarchy .call reference)
  | ["types"] => some (.hierarchy .type reference)
  | ["children"] =>
    some (.children reference
      ((l.given.lookup "depth").bind fun d => (ChildDepth.ofText d).toOption))
  | ["config", "init"] => some (.configInit (hasFlag l "global") (hasFlag l "force"))
  | ["config", "show"] => some (.configShow (hasFlag l "global"))
  | ["config", "path"] => some (.configPath (hasFlag l "global"))
  | _ => none

/-- Reads the arguments behind the name of the program. `defaultRoot` is the root that the
environment gives, if it gives one. -/
def parseArguments (defaultRoot : Option String) (args : List String) :
    Except ArgumentFault Invocation := do
  let levels ← readLevels [commandTree.name] commandTree {} args
  let root ←
    match innermost levels "root", defaultRoot with
    | some root, _ => pure (some root)
    | none, some root => (checkPath root).map fun _ => some root
    | none, none => pure none
  let format := if innermost levels "format" == some "json" then Format.json else Format.table
  match commandOf (levels.tail.map Prod.fst) ((levels.getLast?.map Prod.snd).getD {}) with
  | some command => return ⟨command, root, format⟩
  | none => .error .missingSubcommand

end SymbolQuery.Cli
