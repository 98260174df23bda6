/-
Programming languages: their names, the file extensions that stand for them, and the
other names that a user may give them.
-/
import SymbolQuery.Json.Record
import SymbolQuery.Path
import SymbolQuery.Text.LowerCase

set_option autoImplicit false

namespace SymbolQuery

/-- A language with a known server, or an unknown one. -/
inductive Language
  | rust | cpp | go | java | kotlin | csharp | typescript | javascript | python | ruby | php | lua
  | unknown
  deriving DecidableEq, Repr, Inhabited

namespace Language

/-- The known languages. -/
def all : List Language :=
  [.rust, .cpp, .go, .java, .kotlin, .csharp, .typescript, .javascript, .python, .ruby, .php, .lua]

/-- The name of a language in messages and towards servers. -/
def id : Language → String
  | .rust => "rust"
  | .cpp => "cpp"
  | .go => "go"
  | .java => "java"
  | .kotlin => "kotlin"
  | .csharp => "csharp"
  | .typescript => "typescript"
  | .javascript => "javascript"
  | .python => "python"
  | .ruby => "ruby"
  | .php => "php"
  | .lua => "lua"
  | .unknown => "plaintext"

/-- The name of a language in settings. -/
def key : Language → String
  | .unknown => "unknown"
  | l => l.id

/-- The language of a file extension. -/
def ofExtension (extension : String) : Language :=
  match Text.lower extension with
  | "rs" => .rust
  | "c" | "cpp" | "cc" | "cxx" | "h" | "hpp" | "hxx" => .cpp
  | "go" => .go
  | "java" => .java
  | "kt" | "kts" => .kotlin
  | "cs" => .csharp
  | "ts" | "tsx" | "mts" | "cts" => .typescript
  | "js" | "jsx" | "mjs" | "cjs" => .javascript
  | "py" | "pyi" => .python
  | "rb" | "rake" | "gemspec" => .ruby
  | "php" => .php
  | "lua" => .lua
  | _ => .unknown

/-- The language of a file. -/
def ofPath (path : String) : Language :=
  match Path.extension? path with
  | some extension => ofExtension extension
  | none => .unknown

/-- The language of a name or of a usual short form of it. -/
def ofName? (name : String) : Option Language :=
  let lower := Text.lower name
  match all.find? (fun l => l.id == lower) with
  | some l => some l
  | none =>
    match lower with
    | "c" | "c++" => some .cpp
    | "c#" | "cs" => some .csharp
    | "ts" => some .typescript
    | "js" => some .javascript
    | "py" => some .python
    | _ => none

/-- The JSON text of a language. -/
def toJson (l : Language) : Json := .str l.key

/-- Reads a language by its name in settings. -/
def ofJson : Json → Json.Decoded Language :=
  Json.asVariant ((all ++ [Language.unknown]).map fun (l : Language) => (l.key, l))

end Language

end SymbolQuery
