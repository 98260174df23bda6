/-
Which program serves a language, and how long it may take to get ready.

Every known language has a built-in server. A command in the settings replaces it;
the time the program may take stays that of the built-in one.
-/
import SymbolQuery.Config
import SymbolQuery.Fault

set_option autoImplicit false

namespace SymbolQuery

/-! ## Built-in servers -/

/-- How heavy a server is to start. -/
inductive ServerTier
  | fast
  | standard
  | slow
  deriving DecidableEq, Repr, Inhabited

namespace ServerTier

/-- How long a server of the tier may take to get ready, in milliseconds. -/
def initTimeout : ServerTier → Nat
  | .fast => 15000
  | .standard => 45000
  | .slow => 120000

/-- The name of a tier. -/
def name : ServerTier → String
  | .fast => "Fast"
  | .standard => "Standard"
  | .slow => "Slow"

end ServerTier

/-- A built-in server. -/
structure ServerSpec where
  name : String
  command : String
  arguments : List String
  installHint : String
  tier : ServerTier
  deriving DecidableEq, Repr, Inhabited

/-- The built-in server of a language. -/
def ServerSpec.ofLanguage? : Language → Option ServerSpec
  | .rust =>
    some ⟨"rust-analyzer", "rust-analyzer", [], "rustup component add rust-analyzer", .fast⟩
  | .cpp =>
    some ⟨"clangd", "clangd", ["--background-index"], "apt install clangd (or brew install llvm)",
      .fast⟩
  | .go => some ⟨"gopls", "gopls", ["serve"], "go install golang.org/x/tools/gopls@latest", .fast⟩
  | .java => some ⟨"jdtls", "jdtls", [], "brew install jdtls", .slow⟩
  | .kotlin =>
    some ⟨"kotlin-lsp", "kotlin-lsp", ["--stdio"], "brew install JetBrains/utils/kotlin-lsp",
      .slow⟩
  | .csharp =>
    some ⟨"csharp-ls", "csharp-ls", [], "dotnet tool install --global csharp-ls", .slow⟩
  | .typescript | .javascript =>
    some ⟨"typescript-language-server", "typescript-language-server", ["--stdio"],
      "npm install -g typescript-language-server typescript", .slow⟩
  | .python =>
    some ⟨"pyright", "pyright-langserver", ["--stdio"], "npm install -g pyright", .slow⟩
  | .ruby => some ⟨"ruby-lsp", "ruby-lsp", [], "gem install ruby-lsp", .standard⟩
  | .php =>
    some ⟨"intelephense", "intelephense", ["--stdio"], "npm install -g intelephense", .standard⟩
  | .lua =>
    some ⟨"lua-language-server", "lua-language-server", [], "brew install lua-language-server",
      .standard⟩
  | .unknown => none

/-! ## Commands -/

/-- The program to start for a language. -/
structure ServerCommand where
  name : String
  program : String
  arguments : List String
  installHint : String
  initTimeout : Nat
  deriving DecidableEq, Repr, Inhabited

/-- The command of a language: the one in the settings, else that of the built-in server. -/
def ServerCommand.resolve (language : Language) (commands : ServerCommands) :
    Except ServiceFault ServerCommand :=
  let spec := ServerSpec.ofLanguage? language
  match (commands.commandFor language).map Text.words with
  | some (program :: arguments) =>
    .ok
      { name := program
        program := program
        arguments := arguments
        installHint := s!"check the [lsp.servers] {language.id} entry"
        initTimeout := ((spec.map ServerSpec.tier).getD .slow).initTimeout }
  | _ =>
    match spec with
    | some spec =>
      .ok
        { name := spec.name
          program := spec.command
          arguments := spec.arguments
          installHint := spec.installHint
          initTimeout := spec.tier.initTimeout }
    | none => .error (.unsupportedLanguage language.id)

end SymbolQuery
