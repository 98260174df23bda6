/-
Strings, keys, blanks and comments of TOML.

Basic strings know escapes, literal ones do not. Either may be written over several
lines, between three quotes; then a line end directly after the opening quotes does not
count, each other one is a line feed, and up to two quotes may stand before the closing
ones. Control characters besides the tab are nowhere allowed.

Each reader takes what it reads off the front of a text and returns the rest, or
nothing if the text does not begin that way.
-/
import SymbolQuery.Json.Parser

set_option autoImplicit false

namespace SymbolQuery.Toml

/-! ## Blanks and comments -/

/-- A blank within a line. -/
def isSpace (c : Char) : Bool := c == ' ' || c == '\t'

/-- Drops the blanks at the front. -/
def skipSpace (s : List Char) : List Char := s.dropWhile isSpace

/-- A character that may stand in comments and strings. -/
def isPlain (c : Char) : Bool := c == '\t' || (0x20 ≤ c.toNat && c.toNat != 0x7F)

/-- Takes a line end. -/
def readNewline : List Char → Option (List Char)
  | '\n' :: rest => some rest
  | '\r' :: '\n' :: rest => some rest
  | _ => none

/-- Drops a comment, if one begins here, up to the end of its line. -/
def skipComment : List Char → List Char
  | '#' :: rest => rest.dropWhile isPlain
  | s => s

/-- Takes what may stand behind a statement: blanks, a comment, and the end of the line or of the
text. -/
def readLineEnd (s : List Char) : Option (List Char) :=
  match skipComment (skipSpace s) with
  | [] => some []
  | rest => readNewline rest

/-- Drops blanks, line ends and comments that end with their line; at most `fuel` of them. -/
def skipLinesUpTo : Nat → List Char → List Char
  | 0, s => s
  | fuel + 1, s =>
    let t := skipSpace s
    match readNewline (skipComment t) with
    | some rest => skipLinesUpTo fuel rest
    | none => t

/-- Drops all blanks, line ends and whole comments at the front. -/
def skipLines (s : List Char) : List Char := skipLinesUpTo (s.length + 1) s

/-! ## Escapes -/

/-- The value of hexadecimal digits, all of which have to be such. -/
def hexValue? (digits : List Char) : Option Nat :=
  digits.foldl (fun n c => n.bind fun n => (Json.hexValue? c).map (n * 16 + ·)) (some 0)

/-- The character of a code point, which has to be a scalar value. -/
def scalar? (n : Nat) : Option Char :=
  if h : n.isValidChar then some (Char.ofNatAux n h) else none

/-- The character that an escape of one letter stands for. -/
def shortEscape? : Char → Option Char
  | 'b' => some '\x08'
  | 't' => some '\t'
  | 'n' => some '\n'
  | 'f' => some '\x0c'
  | 'r' => some '\r'
  | '"' => some '"'
  | '\\' => some '\\'
  | _ => none

/-! ## Strings on one line -/

/-- Takes the rest of a basic string. -/
def basicRest : List Char → Option (List Char × List Char)
  | '"' :: rest => some ([], rest)
  | '\\' :: 'u' :: a :: b :: c :: d :: rest =>
    match (hexValue? [a, b, c, d]).bind scalar? with
    | some x => (basicRest rest).map fun (s, r) => (x :: s, r)
    | none => none
  | '\\' :: 'U' :: a :: b :: c :: d :: e :: f :: g :: h :: rest =>
    match (hexValue? [a, b, c, d, e, f, g, h]).bind scalar? with
    | some x => (basicRest rest).map fun (s, r) => (x :: s, r)
    | none => none
  | '\\' :: c :: rest =>
    match shortEscape? c with
    | some x => (basicRest rest).map fun (s, r) => (x :: s, r)
    | none => none
  | c :: rest => if isPlain c then (basicRest rest).map fun (s, r) => (c :: s, r) else none
  | [] => none

/-- Takes the rest of a literal string. -/
def literalRest : List Char → Option (List Char × List Char)
  | '\'' :: rest => some ([], rest)
  | c :: rest => if isPlain c then (literalRest rest).map fun (s, r) => (c :: s, r) else none
  | [] => none

/-! ## Strings over several lines -/

/-- Drops the line end directly after the opening quotes. -/
def skipFirstNewline (s : List Char) : List Char := (readNewline s).getD s

/-- Takes up to two quotes that stand before closing ones: the text behind three quotes is given. -/
def lateQuotes (quote : Char) : List Char → List Char × List Char
  | a :: b :: rest =>
    if a = quote ∧ b = quote then ([a, b], rest)
    else if a = quote then ([a], b :: rest)
    else ([], a :: b :: rest)
  | [a] => if a = quote then ([a], []) else ([], [a])
  | [] => ([], [])

/-- Where a reader of a long basic string is. -/
inductive LongMode
  | text
  /-- Behind an escape at the end of a line, which has not ended yet. -/
  | lineEnd
  /-- Behind that line end: all blanks and line ends are dropped. -/
  | nextLine

/-- Takes the rest of a basic string over several lines. -/
def longBasicRest : LongMode → List Char → Option (List Char × List Char)
  | .lineEnd, c :: rest =>
    if isSpace c then longBasicRest .lineEnd rest
    else if c = '\n' then longBasicRest .nextLine rest
    else if c = '\r' ∧ rest.head? = some '\n' then longBasicRest .lineEnd rest
    else none
  | .nextLine, '\n' :: rest => longBasicRest .nextLine rest
  | .nextLine, '\r' :: '\n' :: rest => longBasicRest .nextLine rest
  | .nextLine, ' ' :: rest => longBasicRest .nextLine rest
  | .nextLine, '\t' :: rest => longBasicRest .nextLine rest
  | _, '"' :: '"' :: '"' :: rest => some (lateQuotes '"' rest)
  | _, '\r' :: '\n' :: rest => (longBasicRest .text rest).map fun (s, r) => ('\n' :: s, r)
  | _, '\n' :: rest => (longBasicRest .text rest).map fun (s, r) => ('\n' :: s, r)
  | _, '\\' :: 'u' :: a :: b :: c :: d :: rest =>
    match (hexValue? [a, b, c, d]).bind scalar? with
    | some x => (longBasicRest .text rest).map fun (s, r) => (x :: s, r)
    | none => none
  | _, '\\' :: 'U' :: a :: b :: c :: d :: e :: f :: g :: h :: rest =>
    match (hexValue? [a, b, c, d, e, f, g, h]).bind scalar? with
    | some x => (longBasicRest .text rest).map fun (s, r) => (x :: s, r)
    | none => none
  | _, '\\' :: c :: rest =>
    match shortEscape? c with
    | some x => (longBasicRest .text rest).map fun (s, r) => (x :: s, r)
    | none =>
      if isSpace c then longBasicRest .lineEnd rest
      else if c = '\n' then longBasicRest .nextLine rest
      else if c = '\r' ∧ rest.head? = some '\n' then longBasicRest .lineEnd rest
      else none
  | _, c :: rest =>
    if isPlain c then (longBasicRest .text rest).map fun (s, r) => (c :: s, r) else none
  | _, [] => none

/-- Takes the rest of a literal string over several lines. -/
def longLiteralRest : List Char → Option (List Char × List Char)
  | '\'' :: '\'' :: '\'' :: rest => some (lateQuotes '\'' rest)
  | '\r' :: '\n' :: rest => (longLiteralRest rest).map fun (s, r) => ('\n' :: s, r)
  | c :: rest =>
    if isPlain c || c == '\n' then (longLiteralRest rest).map fun (s, r) => (c :: s, r) else none
  | [] => none

/-- Takes a string of any kind. -/
def readString : List Char → Option (List Char × List Char)
  | '"' :: '"' :: '"' :: rest => longBasicRest .text (skipFirstNewline rest)
  | '\'' :: '\'' :: '\'' :: rest => longLiteralRest (skipFirstNewline rest)
  | '"' :: rest => basicRest rest
  | '\'' :: rest => literalRest rest
  | _ => none

/-! ## Keys -/

/-- A character of a bare key. -/
def isBare (c : Char) : Bool := c.isAlphanum || c == '_' || c == '-'

/-- Takes a key without dots. -/
def readSimpleKey (s : List Char) : Option (String × List Char) :=
  match s with
  | '"' :: rest => (basicRest rest).map fun (k, r) => (String.ofList k, r)
  | '\'' :: rest => (literalRest rest).map fun (k, r) => (String.ofList k, r)
  | _ =>
    match s.takeWhile isBare with
    | [] => none
    | k => some (String.ofList k, s.dropWhile isBare)

/-- Takes the parts of a key, which stand between dots, and the blanks around them; at most the
given number of parts. -/
def readKeyUpTo : Nat → List Char → Option (List String × List Char)
  | 0, _ => none
  | fuel + 1, s =>
    match readSimpleKey (skipSpace s) with
    | none => none
    | some (k, r) =>
      match skipSpace r with
      | '.' :: rest => (readKeyUpTo fuel rest).map fun (ks, r) => (k :: ks, r)
      | rest => some ([k], rest)

/-- How many levels keys, arrays and inline tables may have. -/
def maxDepth : Nat := 79

/-- Takes a key, as its parts. -/
def readKey (s : List Char) : Option (List String × List Char) := readKeyUpTo maxDepth s

end SymbolQuery.Toml
