/-
Numbers, dates and times of TOML.

Digits may have single underscores between them. An integer has no zero in front
unless it is written to the base 16, 8 or 2, and fits 64 bits with a sign. A date is a
day of the calendar; the second 60 is a second like any other.
-/
import SymbolQuery.Json.Parser
import SymbolQuery.Toml.Basic

set_option autoImplicit false

namespace SymbolQuery.Toml

/-! ## Digits -/

/-- Takes one or more digits with single underscores between them; the underscores are dropped. -/
def readDigitRun (isDigit : Char → Bool) : List Char → Option (List Char × List Char)
  | [] => none
  | c :: rest =>
    if isDigit c then
      match rest with
      | '_' :: more => (readDigitRun isDigit more).map fun (ds, r) => (c :: ds, r)
      | d :: more =>
        if isDigit d then (readDigitRun isDigit (d :: more)).map fun (ds, r) => (c :: ds, r)
        else some ([c], d :: more)
      | [] => some ([c], [])
    else none

/-- The value of digits to a base. -/
def valueOf (base : Nat) (digits : List Char) : Nat :=
  digits.foldl (fun n c => n * base + (Json.hexValue? c).getD 0) 0

/-- Whether a character is a digit to a base of at most 16. -/
def isDigitOf (base : Nat) (c : Char) : Bool :=
  match Json.hexValue? c with
  | some n => decide (n < base)
  | none => false

/-- Takes a sign; the plus sign may be left out. -/
def readSign : List Char → Bool × List Char
  | '-' :: rest => (true, rest)
  | '+' :: rest => (false, rest)
  | s => (false, s)

/-- Takes decimal digits without a zero in front. -/
def readDecimal : List Char → Option (List Char × List Char)
  | '0' :: rest => some (['0'], rest)
  | s => readDigitRun (isDigitOf 10) s

/-! ## Integers -/

/-- An integer that fits 64 bits. -/
def fit64 (i : Int) : Option Toml :=
  if -9223372036854775808 ≤ i ∧ i ≤ 9223372036854775807 then some (.int i) else none

/-- Takes the digits of an integer to a base. -/
def readBased (base : Nat) (s : List Char) : Option (Toml × List Char) :=
  (readDigitRun (isDigitOf base) s).bind fun (digits, rest) =>
    (fit64 (valueOf base digits)).map fun v => (v, rest)

/-- Takes an integer. -/
def readInteger : List Char → Option (Toml × List Char)
  | '0' :: 'x' :: rest => readBased 16 rest
  | '0' :: 'o' :: rest => readBased 8 rest
  | '0' :: 'b' :: rest => readBased 2 rest
  | s =>
    let (negative, rest) := readSign s
    (readDecimal rest).bind fun (digits, rest) =>
      let n : Int := valueOf 10 digits
      (fit64 (if negative then -n else n)).map fun v => (v, rest)

/-! ## Real numbers -/

/-- The octets of minus infinity. -/
def minusInfinity : UInt64 := 0xFFF0000000000000

/-- A real number by its parts; a positive one has to be finite. -/
def realOf (negative : Bool) (significand : Nat) (exponent : Int) : Option Toml :=
  match Json.Real.ofParts negative significand exponent with
  | some bits => some (.real bits)
  | none => if negative then some (.real minusInfinity) else none

/-- Takes an exponent, if one begins here. -/
def readExponent : List Char → Option (Option Int × List Char)
  | c :: rest =>
    if c = 'e' ∨ c = 'E' then
      let (negative, rest) := readSign rest
      (readDigitRun (isDigitOf 10) rest).map fun (digits, rest) =>
        let n : Int := valueOf 10 digits
        (some (if negative then -n else n), rest)
    else some (none, c :: rest)
  | [] => some (none, [])

/-- Whether a text goes on as a real number does behind its whole part. -/
def goesOnAsReal : List Char → Bool
  | '.' :: _ => true
  | 'e' :: _ => true
  | 'E' :: _ => true
  | _ => false

/-- Takes the fraction and the exponent behind the whole part of a number. -/
def readRealRest (negative : Bool) (whole : List Char) : List Char → Option (Toml × List Char)
  | '.' :: rest => do
    let (fraction, rest) ← readDigitRun (isDigitOf 10) rest
    let (exponent, rest) ← readExponent rest
    let v ← realOf negative (valueOf 10 (whole ++ fraction)) (exponent.getD 0 - fraction.length)
    return (v, rest)
  | s => do
    let (exponent, rest) ← readExponent s
    let v ← realOf negative (valueOf 10 whole) (exponent.getD 0)
    return (v, rest)

/-- Takes a number that has a name. -/
def readNamedReal (s : List Char) : Option (Toml × List Char) :=
  let (negative, rest) := readSign s
  let sign : UInt64 := if negative then 0x8000000000000000 else 0
  match rest with
  | 'i' :: 'n' :: 'f' :: rest => some (.real (sign + 0x7FF0000000000000), rest)
  | 'n' :: 'a' :: 'n' :: rest => some (.real (sign + 0x7FF8000000000000), rest)
  | _ => none

/-- Takes a number. -/
def readNumber (s : List Char) : Option (Toml × List Char) :=
  match readNamedReal s with
  | some found => some found
  | none =>
    let (negative, rest) := readSign s
    match readDecimal rest with
    | some (whole, more) =>
      if goesOnAsReal more then readRealRest negative whole more else readInteger s
    | none => none

/-! ## Dates and times -/

/-- Takes exactly the given number of decimal digits. -/
def readFixed (count : Nat) (s : List Char) : Option (Nat × List Char) :=
  let digits := s.take count
  if digits.length = count ∧ digits.all (isDigitOf 10) then
    some (valueOf 10 digits, s.drop count)
  else none

/-- Takes two digits with a value between two bounds. -/
def readTwo (low high : Nat) (s : List Char) : Option (Nat × List Char) :=
  (readFixed 2 s).filter fun e => decide (low ≤ e.1 ∧ e.1 ≤ high)

/-- Takes one given character. -/
def readChar (c : Char) : List Char → Option (List Char)
  | d :: rest => if d = c then some rest else none
  | [] => none

/-- How many days a month has. -/
def daysIn (year month : Nat) : Nat :=
  if month = 2 then
    if year % 4 = 0 ∧ (year % 100 ≠ 0 ∨ year % 400 = 0) then 29 else 28
  else if month = 4 ∨ month = 6 ∨ month = 9 ∨ month = 11 then 30
  else 31

/-- A number with zeros in front up to a width. -/
def padded (width n : Nat) : List Char :=
  let digits := Nat.toDigits 10 n
  List.replicate (width - digits.length) '0' ++ digits

/-- Takes a date. -/
def readDate (s : List Char) : Option (List Char × List Char) := do
  let (year, s) ← readFixed 4 s
  let (month, s) ← readTwo 1 12 (← readChar '-' s)
  let (day, s) ← readTwo 1 (daysIn year month) (← readChar '-' s)
  return (padded 4 year ++ '-' :: padded 2 month ++ '-' :: padded 2 day, s)

/-- Takes the fraction of a second, if there is one: of its digits nine count. -/
def readFraction : List Char → Option (List Char × List Char)
  | '.' :: s =>
    match s.takeWhile (isDigitOf 10) with
    | [] => none
    | digits =>
      let kept := ((digits.take 9).reverse.dropWhile (· == '0')).reverse
      some (if kept.isEmpty then [] else '.' :: kept, s.dropWhile (isDigitOf 10))
  | s => some ([], s)

/-- Takes a time of day. -/
def readTime (s : List Char) : Option (List Char × List Char) := do
  let (hour, s) ← readTwo 0 23 s
  let (minute, s) ← readTwo 0 59 (← readChar ':' s)
  let (second, s) ← readTwo 0 60 (← readChar ':' s)
  let (fraction, s) ← readFraction s
  return (padded 2 hour ++ ':' :: padded 2 minute ++ ':' :: padded 2 second ++ fraction, s)

/-- Takes the distance from universal time, if there is one. -/
def readOffset : List Char → Option (List Char × List Char)
  | 'Z' :: s => some (['Z'], s)
  | 'z' :: s => some (['Z'], s)
  | c :: s =>
    if c = '+' ∨ c = '-' then do
      let (hour, s) ← readTwo 0 23 s
      let (minute, s) ← readTwo 0 59 (← readChar ':' s)
      let sign := if hour = 0 ∧ minute = 0 then '+' else c
      return (sign :: padded 2 hour ++ ':' :: padded 2 minute, s)
    else some ([], c :: s)
  | [] => some ([], [])

/-- Takes the time behind a date, if there is one. -/
def readTimeAfterDate : List Char → Option (List Char × List Char)
  | c :: s =>
    if c = 'T' ∨ c = 't' ∨ c = ' ' then
      match readTime s with
      | some (time, s) => (readOffset s).map fun (offset, s) => ('T' :: time ++ offset, s)
      | none => some ([], c :: s)
    else some ([], c :: s)
  | [] => some ([], [])

/-- Takes a date, a time or both. -/
def readMoment (s : List Char) : Option (Toml × List Char) :=
  match readDate s with
  | some (date, rest) =>
    (readTimeAfterDate rest).map fun (time, rest) => (.moment (String.ofList (date ++ time)), rest)
  | none => (readTime s).map fun (time, rest) => (.moment (String.ofList time), rest)

end SymbolQuery.Toml
