/-
Lower case, as far as a comparison with ASCII words can tell.

Besides the ASCII capitals only two characters have a lower-case form that holds an
ASCII letter: the Kelvin sign, which becomes `k`, and the capital dotted I, which
becomes `i` with a combining dot. All others stay as they are, which no comparison
with an ASCII word can see.
-/
set_option autoImplicit false

namespace SymbolQuery.Text

/-- The lower-case form of an ASCII capital; any other character is kept. -/
def lowerAscii (c : Char) : Char :=
  if 'A' ≤ c ∧ c ≤ 'Z' then Char.ofNat (c.toNat + 32) else c

/-- The lower-case form of a character. -/
def lowerChar (c : Char) : List Char :=
  if c.toNat = 0x212A then ['k']
  else if c.toNat = 0x130 then ['i', Char.ofNat 0x307]
  else [lowerAscii c]

/-- The lower-case form of a text. -/
def lower (s : String) : String := String.ofList (s.toList.flatMap lowerChar)

/-- Whether two texts agree up to the case of ASCII letters. -/
def sameUpToCase (s t : String) : Bool := s.toList.map lowerAscii == t.toList.map lowerAscii

end SymbolQuery.Text
