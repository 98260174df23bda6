/-
JSON text to JSON values.

The grammar is read by recursive descent. Every call that reads a value or goes on
inside an array or object gets one unit less of fuel, and the wrapper hands out more
units than the text has characters, so the fuel never decides. Arrays and objects
may nest 127 deep; that bound is part of the format read here.

A fault keeps the rest of the text at which it was seen. Its place, a line and a
column counted in octets, is computed from that rest when it is worded.
-/
import SymbolQuery.Json.Basic
import SymbolQuery.Json.Real
import SymbolQuery.Text.Integer

set_option autoImplicit false

namespace SymbolQuery.Json

/-! ## Faults -/

/-- What can be wrong with JSON text. -/
inductive SyntaxCause
  | valueEnds
  | stringEnds
  | listEnds
  | objectEnds
  | expectedValue
  | expectedWord
  | expectedColon
  | expectedListComma
  | expectedObjectComma
  | trailingComma
  | keyNotText
  | trailingCharacters
  | tooDeep
  | badNumber
  | numberTooLarge
  | badEscape
  | badCodePoint
  | loneSurrogate
  | escapeEnds
  | controlCharacter
  deriving DecidableEq, Repr

/-- The wording of a cause. -/
def SyntaxCause.message : SyntaxCause → String
  | .valueEnds => "EOF while parsing a value"
  | .stringEnds => "EOF while parsing a string"
  | .listEnds => "EOF while parsing a list"
  | .objectEnds => "EOF while parsing an object"
  | .expectedValue => "expected value"
  | .expectedWord => "expected ident"
  | .expectedColon => "expected " ++ quoted ":"
  | .expectedListComma => "expected " ++ quoted "," ++ " or " ++ quoted "]"
  | .expectedObjectComma => "expected " ++ quoted "," ++ " or " ++ quoted "\x7d"
  | .trailingComma => "trailing comma"
  | .keyNotText => "key must be a string"
  | .trailingCharacters => "trailing characters"
  | .tooDeep => "recursion limit exceeded"
  | .badNumber => "invalid number"
  | .numberTooLarge => "number out of range"
  | .badEscape => "invalid escape"
  | .badCodePoint => "invalid unicode code point"
  | .loneSurrogate => "lone leading surrogate in hex escape"
  | .escapeEnds => "unexpected end of hex escape"
  | .controlCharacter => "control character (\\u0000-\\u001F) found while parsing a string"
where
  /-- The text between grave accents. -/
  quoted (s : String) : String := "\x60" ++ s ++ "\x60"

/-- A cause, the text not yet read, and whether its first character is already looked at. -/
structure SyntaxFault where
  cause : SyntaxCause
  rest : List Char
  looked : Bool

/-- The number of octets of characters. -/
def octetCount (s : List Char) : Nat := s.foldl (fun n c => n + c.utf8Size) 0

/-- The line and the column, in octets, of what stands directly before a place. -/
def placeOf (before : List Char) : Nat × Nat :=
  let line := before.count '\n' + 1
  let last := (before.reverse.takeWhile (· ≠ '\n'))
  (line, octetCount last)

/-- The wording of a fault in `text`. -/
def SyntaxFault.message (text : List Char) (f : SyntaxFault) : String :=
  let read := text.length - f.rest.length
  let read := if f.looked && !f.rest.isEmpty then read + 1 else read
  let (line, column) := placeOf (text.take read)
  s!"{f.cause.message} at line {line} column {column}"

/-- A fault at a character looked at. -/
def failAt {α : Type} (cause : SyntaxCause) (rest : List Char) : Except SyntaxFault α :=
  .error ⟨cause, rest, true⟩

/-- A fault after the characters taken. -/
def failAfter {α : Type} (cause : SyntaxCause) (rest : List Char) : Except SyntaxFault α :=
  .error ⟨cause, rest, false⟩

/-- Skips spaces, tabs and line breaks. -/
def skipBlanks (s : List Char) : List Char :=
  s.dropWhile fun c => c = ' ' ∨ c = '\n' ∨ c = '\t' ∨ c = '\r'

/-! ## Words and numbers -/

/-- Reads the rest of a word such as `null`. -/
def readWord (v : Json) : List Char → List Char → Except SyntaxFault (Json × List Char)
  | [], s => .ok (v, s)
  | _ :: _, [] => failAfter .valueEnds []
  | w :: ws, c :: cs => if w = c then readWord v ws cs else failAfter .expectedWord cs

/-- A decimal digit. -/
def isDigit (c : Char) : Bool := '0' ≤ c && c ≤ '9'

/-- The value of a decimal digit. -/
def digit (c : Char) : Nat := c.toNat - '0'.toNat

/-- Appends digits to an integer while it fits 64 bits; the integer and the digits left over. -/
def takeDigits : Nat → List Char → Nat × List Char
  | acc, [] => (acc, [])
  | acc, c :: cs =>
    if acc * 10 + digit c ≤ Text.max64 then takeDigits (acc * 10 + digit c) cs else (acc, c :: cs)

/-- The exponent of `digits`, or `none` above `2 ^ 31 - 1`. -/
def exponentOf (digits : List Char) : Option Nat :=
  (Text.readDigits 2147483647 0 digits).toOption

/-- A double-precision number of the given parts. -/
def realOf (negative : Bool) (significand : Nat) (exponent : Int) (s : List Char) :
    Except SyntaxFault (Json × List Char) :=
  match Real.ofParts negative significand exponent with
  | some bits => .ok (.num (.real bits), s)
  | none => failAfter .numberTooLarge s

/-- Reads what follows the letter of an exponent; `start` is the exponent so far. -/
def readExponent (negative : Bool) (significand : Nat) (start : Int) (s : List Char) :
    Except SyntaxFault (Json × List Char) :=
  let (down, s) :=
    match s with
    | '+' :: r => (false, r)
    | '-' :: r => (true, r)
    | r => (false, r)
  let digits := s.takeWhile isDigit
  let rest := s.dropWhile isDigit
  match digits with
  | [] =>
    match rest with
    | [] => failAfter .valueEnds []
    | _ :: r => failAfter .badNumber r
  | _ =>
    match exponentOf digits with
    | some e => realOf negative significand (if down then start - e else start + e) rest
    | none =>
      if significand ≠ 0 ∧ !down then failAfter .numberTooLarge rest
      else realOf negative 0 0 rest

/-- Reads what follows the integer digits of a number that is no plain integer. -/
def readScaled (negative : Bool) (significand : Nat) (exponent : Int) (s : List Char) :
    Except SyntaxFault (Json × List Char) :=
  match s with
  | 'e' :: r => readExponent negative significand exponent r
  | 'E' :: r => readExponent negative significand exponent r
  | r => realOf negative significand exponent r

/-- Reads a number after its sign. -/
def readNumber (negative : Bool) (s : List Char) : Except SyntaxFault (Json × List Char) :=
  let digits := s.takeWhile isDigit
  let rest := s.dropWhile isDigit
  match digits with
  | [] =>
    match rest with
    | [] => failAfter .valueEnds []
    | _ :: r => failAfter .badNumber r
  | '0' :: d :: more => failAt .badNumber (d :: more ++ rest)
  | _ =>
    let (significand, left) := takeDigits 0 digits
    match rest with
    | '.' :: r =>
      let fraction := r.takeWhile isDigit
      let after := r.dropWhile isDigit
      if fraction.isEmpty then
        failAt (if after.isEmpty then .valueEnds else .badNumber) after
      else
        let (longer, ignored) := takeDigits significand fraction
        readScaled negative longer
          ((left.length : Int) - (fraction.length - ignored.length : Nat)) after
    | _ =>
      let plain := left.isEmpty &&
        (match rest with | 'e' :: _ => false | 'E' :: _ => false | _ => true)
      if !plain then readScaled negative significand left.length rest
      else if !negative then .ok (.num (.int significand), rest)
      else if 0 < significand ∧ significand ≤ 9223372036854775808 then
        .ok (.num (.int (-(significand : Int))), rest)
      else realOf true significand 0 rest

/-! ## Strings -/

/-- The value of a hexadecimal digit. -/
def hexValue? (c : Char) : Option Nat :=
  if '0' ≤ c ∧ c ≤ '9' then some (c.toNat - '0'.toNat)
  else if 'a' ≤ c ∧ c ≤ 'f' then some (c.toNat - 'a'.toNat + 10)
  else if 'A' ≤ c ∧ c ≤ 'F' then some (c.toNat - 'A'.toNat + 10)
  else none

/-- Reads four hexadecimal digits. -/
def readHex : List Char → Except SyntaxFault (Nat × List Char)
  | a :: b :: c :: d :: rest =>
    match hexValue? a, hexValue? b, hexValue? c, hexValue? d with
    | some w, some x, some y, some z => .ok (w * 4096 + x * 256 + y * 16 + z, rest)
    | _, _, _, _ => failAfter .badEscape rest
  | _ => failAfter .stringEnds []

/-- Reads the digits of a `\u` escape, and of the second half of a pair. -/
def readUnicode (s : List Char) : Except SyntaxFault (Char × List Char) := do
  let (first, rest) ← readHex s
  if 0xDC00 ≤ first ∧ first ≤ 0xDFFF then failAfter .loneSurrogate rest
  else if 0xD800 ≤ first ∧ first ≤ 0xDBFF then
    match rest with
    | '\\' :: 'u' :: more =>
      let (second, rest) ← readHex more
      if 0xDC00 ≤ second ∧ second ≤ 0xDFFF then
        return (Char.ofNat (0x10000 + (first - 0xD800) * 1024 + (second - 0xDC00)), rest)
      else failAfter .loneSurrogate rest
    | '\\' :: [] => failAfter .stringEnds []
    | '\\' :: _ :: more => failAfter .escapeEnds more
    | [] => failAfter .stringEnds []
    | _ :: more => failAfter .escapeEnds more
  else return (Char.ofNat first, rest)

/-- Reads what follows a backslash. -/
def readEscape : List Char → Except SyntaxFault (Char × List Char)
  | [] => failAfter .stringEnds []
  | '"' :: r => .ok ('"', r)
  | '\\' :: r => .ok ('\\', r)
  | '/' :: r => .ok ('/', r)
  | 'b' :: r => .ok (Char.ofNat 8, r)
  | 'f' :: r => .ok (Char.ofNat 12, r)
  | 'n' :: r => .ok ('\n', r)
  | 'r' :: r => .ok ('\r', r)
  | 't' :: r => .ok ('\t', r)
  | 'u' :: r => readUnicode r
  | _ :: r => failAfter .badEscape r

/-- Reads to the closing quote; `done` holds the characters before, the last first. -/
def readString : Nat → List Char → List Char → Except SyntaxFault (String × List Char)
  | 0, _, s => failAfter .stringEnds s
  | _ + 1, _, [] => failAfter .stringEnds []
  | fuel + 1, done, c :: cs =>
    if c = '"' then .ok (String.ofList done.reverse, cs)
    else if c = '\\' then do
      let (d, rest) ← readEscape cs
      readString fuel (d :: done) rest
    else if c.toNat < 0x20 then failAfter .controlCharacter cs
    else readString fuel (c :: done) cs

/-! ## Values -/

/-- How deep arrays and objects may nest, plus one. -/
def depthLimit : Nat := 128

mutual

/-- Reads a value. -/
def readValue : Nat → Nat → List Char → Except SyntaxFault (Json × List Char)
  | 0, _, s => failAt .valueEnds s
  | fuel + 1, depth, s =>
    match skipBlanks s with
    | [] => failAt .valueEnds []
    | c :: cs =>
      if c = 'n' then readWord .null ['u', 'l', 'l'] cs
      else if c = 't' then readWord (.bool true) ['r', 'u', 'e'] cs
      else if c = 'f' then readWord (.bool false) ['a', 'l', 's', 'e'] cs
      else if c = '-' then readNumber true cs
      else if isDigit c then readNumber false (c :: cs)
      else if c = '"' then do
        let (t, rest) ← readString (cs.length + 1) [] cs
        return (.str t, rest)
      else if c = '[' then
        if depth ≤ 1 then failAt .tooDeep (c :: cs)
        else readItems fuel (depth - 1) true [] cs
      else if c = '\x7b' then
        if depth ≤ 1 then failAt .tooDeep (c :: cs)
        else readFields fuel (depth - 1) true [] cs
      else failAt .expectedValue (c :: cs)

/-- Reads the items of an array up to its bracket; `done` holds those before, the last first. -/
def readItems : Nat → Nat → Bool → List Json → List Char → Except SyntaxFault (Json × List Char)
  | 0, _, _, _, s => failAt .listEnds s
  | fuel + 1, depth, first, done, s =>
    match skipBlanks s with
    | [] => failAt .listEnds []
    | c :: cs =>
      if c = ']' then .ok (.arr done.reverse, cs)
      else if first then do
        let (v, rest) ← readValue fuel depth (c :: cs)
        readItems fuel depth false (v :: done) rest
      else if c = ',' then
        match skipBlanks cs with
        | [] => failAt .valueEnds []
        | ']' :: more => failAt .trailingComma (']' :: more)
        | d :: more => do
          let (v, rest) ← readValue fuel depth (d :: more)
          readItems fuel depth false (v :: done) rest
      else failAt .expectedListComma (c :: cs)

/-- Reads the fields of an object up to its brace. -/
def readFields :
    Nat → Nat → Bool → List (String × Json) → List Char → Except SyntaxFault (Json × List Char)
  | 0, _, _, _, s => failAt .objectEnds s
  | fuel + 1, depth, first, done, s =>
    match skipBlanks s with
    | [] => failAt .objectEnds []
    | c :: cs =>
      if c = '\x7d' then .ok (.obj done, cs)
      else if first then
        if c = '"' then readField fuel depth done cs else failAt .keyNotText (c :: cs)
      else if c = ',' then
        match skipBlanks cs with
        | [] => failAt .valueEnds []
        | d :: more =>
          if d = '"' then readField fuel depth done more
          else if d = '\x7d' then failAt .trailingComma (d :: more)
          else failAt .keyNotText (d :: more)
      else failAt .expectedObjectComma (c :: cs)

/-- Reads a field after the quote of its key, and the fields after it. -/
def readField : Nat → Nat → List (String × Json) → List Char → Except SyntaxFault (Json × List Char)
  | 0, _, _, s => failAt .objectEnds s
  | fuel + 1, depth, done, s => do
    let (key, rest) ← readString (s.length + 1) [] s
    match skipBlanks rest with
    | [] => failAt .objectEnds []
    | c :: cs =>
      if c = ':' then
        let (v, rest) ← readValue fuel depth cs
        readFields fuel depth false (insertField key v done) rest
      else failAt .expectedColon (c :: cs)

end

/-- The value of a whole text, in which arrays and objects nest less deep than a limit. -/
def parseWithin (limit : Nat) (s : List Char) : Except SyntaxFault Json := do
  let (v, rest) ← readValue (3 * s.length + 3) limit s
  match skipBlanks rest with
  | [] => return v
  | r => failAt .trailingCharacters r

/-- The value of a whole text. -/
def parseChars (s : List Char) : Except SyntaxFault Json := parseWithin depthLimit s

/-- The value of a whole text. -/
def parse (s : String) : Except SyntaxFault Json := parseChars s.toList

end SymbolQuery.Json
