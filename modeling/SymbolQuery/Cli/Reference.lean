/-
Symbols as they are named on a command line.

A reference is a file, then a position behind two colons or a symbol name behind a
hash sign, or both: `src/lib.rs:10:4#parse`. The last hash sign counts. The position
begins at the first colon with a digit behind it, where the colon of a leading drive
letter is passed over. `text` writes a reference back.
-/
import SymbolQuery.Position
import SymbolQuery.Text.Integer

set_option autoImplicit false

namespace SymbolQuery

/-- A file with a position in it, a symbol name, or both. -/
structure Reference where
  file : String
  position : Option Position
  name : Option String
  deriving DecidableEq, Repr, Inhabited

namespace Reference

/-! ## Faults -/

/-- Why a text is no reference. -/
inductive Fault
  | empty
  | emptyName
  | negative
  | missingCharacter (given : String)
  | badLine (given : String)
  | badCharacter (given : String)
  | noTarget
  deriving DecidableEq, Repr

/-- The wording of a fault. -/
def Fault.message : Fault → String
  | .empty => "Reference cannot be empty"
  | .emptyName => "Symbol name after '#' cannot be empty\nExample: src/lib.rs#parse"
  | .negative =>
    "Invalid position: negative values not allowed. Positions are zero-based.\n"
      ++ "Example: src/main.rs:9:4"
  | .missingCharacter given =>
    s!"Missing character in '{given}'. Expected line:character (zero-based)\n"
      ++ "Example: src/main.rs:9:4"
  | .badLine given => s!"Invalid line '{given}': must be a non-negative integer"
  | .badCharacter given => s!"Invalid character '{given}': must be a non-negative integer"
  | .noTarget =>
    "Invalid reference. Expected file:line:character or file#name\nExample: src/main.rs:9:4"

/-! ## Reading -/

/-- An ASCII digit. -/
def isDigit (c : Char) : Bool := '0' ≤ c && c ≤ '9'

/-- An ASCII letter. -/
def isLetter (c : Char) : Bool := ('a' ≤ c && c ≤ 'z') || ('A' ≤ c && c ≤ 'Z')

/-- Cuts at the last hash sign. -/
def splitName (s : List Char) : List Char × Option (List Char) :=
  match Text.splitFirst? (· = '#') s.reverse with
  | none => (s, none)
  | some (after, before) => (before.reverse, some after.reverse)

/-- Cuts at the first colon with a digit behind it; a minus sign behind a colon is a fault. -/
def splitAtColon : List Char → Except Fault (Option (List Char × List Char))
  | [] => .ok none
  | ':' :: [] => .ok none
  | ':' :: c :: rest =>
    if isDigit c then .ok (some ([], c :: rest))
    else if c = '-' then .error .negative
    else (splitAtColon (c :: rest)).map (Option.map fun (file, p) => (':' :: file, p))
  | c :: rest => (splitAtColon rest).map (Option.map fun (file, p) => (c :: file, p))

/-- Cuts a text into file and position; a leading drive letter and its colon belong to the file. -/
def splitPosition (s : List Char) : Except Fault (Option (List Char × List Char)) :=
  match s with
  | c :: ':' :: d :: rest =>
    if isLetter c then
      (splitAtColon (d :: rest)).map (Option.map fun (file, p) => (c :: ':' :: file, p))
    else splitAtColon s
  | _ => splitAtColon s

/-- Reads a line and a character. -/
def readPosition (s : List Char) : Except Fault Position :=
  match Text.splitFirst? (· = ':') s with
  | none => .error (.missingCharacter (String.ofList s))
  | some (line, character) =>
    match Text.readUnsigned Text.max32 line with
    | .error _ => .error (.badLine (String.ofList line))
    | .ok l =>
      match Text.readUnsigned Text.max32 character with
      | .error _ => .error (.badCharacter (String.ofList character))
      | .ok c => .ok ⟨l, c⟩

/-- Reads what stands before the hash sign, with the name behind it. -/
def parseLocation (location : List Char) (name : Option String) : Except Fault Reference :=
  match splitPosition location with
  | .error e => .error e
  | .ok (some (file, rest)) =>
    match readPosition rest with
    | .error e => .error e
    | .ok p => .ok ⟨String.ofList file, some p, name⟩
  | .ok none =>
    match name with
    | some n => .ok ⟨String.ofList location, none, some n⟩
    | none => .error .noTarget

/-- Reads a reference from characters. -/
def parseChars (input : List Char) : Except Fault Reference :=
  match Text.trimChars input with
  | [] => .error .empty
  | trimmed =>
    match splitName trimmed with
    | (location, none) => parseLocation location none
    | (location, some name) =>
      match Text.trimChars name with
      | [] => .error .emptyName
      | n => parseLocation location (some (String.ofList n))

/-- Reads a reference. -/
def parse (input : String) : Except Fault Reference := parseChars input.toList

/-! ## Writing -/

/-- The text of a reference. -/
def text (r : Reference) : String :=
  r.file ++ (match r.position with | some p => ":" ++ p.text | none => "")
    ++ (match r.name with | some n => "#" ++ n | none => "")

end Reference

end SymbolQuery
