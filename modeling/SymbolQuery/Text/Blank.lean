/-
Blank characters, and trimming them off the ends of a text.

Which characters are blank is the Unicode property White_Space, as a table of its
ranges. A request, a reference on the command line, a header line and a
configuration value are all trimmed by this one rule, so a no-break space around a
word never becomes part of it.
-/
set_option autoImplicit false

namespace SymbolQuery.Text

/-! ## The class -/

/-- The characters of the property White_Space. -/
def isBlank (c : Char) : Bool :=
  let n := c.toNat
  (9 ≤ n && n ≤ 13) || n == 0x20 || n == 0x85 || n == 0xA0 || n == 0x1680
    || (0x2000 ≤ n && n ≤ 0x200A) || n == 0x2028 || n == 0x2029 || n == 0x202F
    || n == 0x205F || n == 0x3000

/-- A text with no character besides blank ones; the empty text is one. -/
def isBlankText (s : String) : Bool := s.toList.all isBlank

/-! ## Trimming -/

/-- Drops the blank characters at the start. -/
def trimStartChars (s : List Char) : List Char := s.dropWhile isBlank

/-- Drops the blank characters at the end. -/
def trimEndChars (s : List Char) : List Char := (s.reverse.dropWhile isBlank).reverse

/-- Drops the blank characters at both ends. -/
def trimChars (s : List Char) : List Char := trimEndChars (trimStartChars s)

/-- The text without the blank characters at its two ends. -/
def trim (s : String) : String := String.ofList (trimChars s.toList)

/-! ## Prefixes and parts

Small questions about a text, answered on its list of characters. -/

/-- What follows `lead` in `s`, if `s` starts with it. -/
def dropLead? : List Char → List Char → Option (List Char)
  | [], s => some s
  | _ :: _, [] => none
  | l :: ls, c :: cs => if l = c then dropLead? ls cs else none

/-- Whether `part` stands somewhere in `s`. -/
def containsChars (part : List Char) : List Char → Bool
  | [] => part.isEmpty
  | c :: cs => part.isPrefixOf (c :: cs) || containsChars part cs

/-- Whether the text `part` stands somewhere in `s`. -/
def contains (s part : String) : Bool := containsChars part.toList s.toList

/-- Cuts at the first character that satisfies `p`, which is dropped; `none` if there is none. -/
def splitFirst? (p : Char → Bool) : List Char → Option (List Char × List Char)
  | [] => none
  | c :: cs =>
    if p c then some ([], cs)
    else (splitFirst? p cs).map fun (before, after) => (c :: before, after)

/-- Cuts at every character that satisfies `p`; the pieces in between, empty ones included. -/
def splitAll (p : Char → Bool) : List Char → List (List Char)
  | [] => [[]]
  | c :: cs =>
    if p c then [] :: splitAll p cs
    else
      match splitAll p cs with
      | [] => [[c]]
      | piece :: rest => (c :: piece) :: rest

/-- The words of a text: its pieces between blank characters, without the empty ones. -/
def words (s : String) : List String :=
  ((splitAll isBlank s.toList).filter (fun w => !w.isEmpty)).map String.ofList

end SymbolQuery.Text
