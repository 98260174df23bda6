/-
UTF-8: octets to characters and back.

`readChar` takes one character off the front of an octet list and says precisely
what is wrong when it cannot: how many octets form the longest prefix that could
have begun a character, or that the list ended inside one. The strict reader stops
there with the place; the lenient one puts a replacement character for each such
prefix and goes on.
-/
set_option autoImplicit false

namespace SymbolQuery.Text

/-! ## One character -/

/-- The octets of a character. -/
def encodeChar (c : Char) : List UInt8 := String.utf8EncodeChar c

/-- The octets of a list of characters. -/
def encodeChars (s : List Char) : List UInt8 := s.flatMap encodeChar

/-- The octets of a text. -/
def encode (s : String) : List UInt8 := s.toUTF8.toList

/-- What stands at the front of an octet list. -/
inductive Front
  /-- A whole character and what follows it. -/
  | char (c : Char) (rest : List UInt8)
  /-- `length` octets that begin no character, and what follows them. -/
  | invalid (length : Nat) (rest : List UInt8)
  /-- The list ends inside a character. -/
  | cut
  deriving Repr

/-- A continuation octet. -/
def isTail (b : UInt8) : Bool := 0x80 ≤ b && b ≤ 0xBF

/-- The six value bits of a continuation octet. -/
def tailBits (b : UInt8) : Nat := b.toNat % 64

/-- Whether `second` may follow the lead octet `lead` of a three-octet character. -/
def okSecondOfThree (lead second : UInt8) : Bool :=
  if lead == 0xE0 then 0xA0 ≤ second && second ≤ 0xBF
  else if lead == 0xED then 0x80 ≤ second && second ≤ 0x9F
  else isTail second

/-- Whether `second` may follow the lead octet `lead` of a four-octet character. -/
def okSecondOfFour (lead second : UInt8) : Bool :=
  if lead == 0xF0 then 0x90 ≤ second && second ≤ 0xBF
  else if lead == 0xF4 then 0x80 ≤ second && second ≤ 0x8F
  else isTail second

/-- Takes a character of two octets with the lead octet `a`. -/
def readTwo (a : UInt8) : List UInt8 → Front
  | [] => .cut
  | b :: rest =>
    if isTail b then .char (Char.ofNat (a.toNat % 32 * 64 + tailBits b)) rest
    else .invalid 1 (b :: rest)

/-- Takes a character of three octets with the lead octet `a`. -/
def readThree (a : UInt8) : List UInt8 → Front
  | [] => .cut
  | b :: rest =>
    if !okSecondOfThree a b then .invalid 1 (b :: rest)
    else
      match rest with
      | [] => .cut
      | c :: rest =>
        if isTail c then
          .char (Char.ofNat (a.toNat % 16 * 4096 + tailBits b * 64 + tailBits c)) rest
        else .invalid 2 (c :: rest)

/-- Takes a character of four octets with the lead octet `a`. -/
def readFour (a : UInt8) : List UInt8 → Front
  | [] => .cut
  | b :: rest =>
    if !okSecondOfFour a b then .invalid 1 (b :: rest)
    else
      match rest with
      | [] => .cut
      | c :: rest =>
        if !isTail c then .invalid 2 (c :: rest)
        else
          match rest with
          | [] => .cut
          | d :: rest =>
            if isTail d then
              .char (Char.ofNat
                (a.toNat % 8 * 262144 + tailBits b * 4096 + tailBits c * 64 + tailBits d)) rest
            else .invalid 3 (d :: rest)

/-- Takes the character that begins with the octet `a`. -/
def readChar (a : UInt8) (rest : List UInt8) : Front :=
  if a < 0x80 then .char (Char.ofNat a.toNat) rest
  else if a < 0xC2 then .invalid 1 rest
  else if a < 0xE0 then readTwo a rest
  else if a < 0xF0 then readThree a rest
  else if a < 0xF5 then readFour a rest
  else .invalid 1 rest

/-! ## Whole lists -/

/-- Why octets are no text. -/
inductive Utf8Fault
  /-- `length` octets from `index` on begin no character. -/
  | invalid (length index : Nat)
  /-- The octets end inside the character that begins at `index`. -/
  | cut (index : Nat)
  deriving DecidableEq, Repr

/-- The wording of a fault. -/
def Utf8Fault.message : Utf8Fault → String
  | .invalid length index => s!"invalid utf-8 sequence of {length} bytes from index {index}"
  | .cut index => s!"incomplete utf-8 byte sequence from index {index}"

/-- Reads at most `fuel` characters strictly; `done` holds those read, the last first. -/
def decodeLoop : Nat → List Char → Nat → List UInt8 → Except Utf8Fault (List Char)
  | _, done, _, [] => .ok done.reverse
  | 0, done, _, _ => .ok done.reverse
  | fuel + 1, done, index, a :: rest =>
    match readChar a rest with
    | .char c rest => decodeLoop fuel (c :: done) (index + c.utf8Size) rest
    | .invalid length _ => .error (.invalid length index)
    | .cut => .error (.cut index)

/-- The characters of octets, or what is wrong with them; a character has at least one octet,
so the number of octets bounds the characters. -/
def decode (octets : List UInt8) : Except Utf8Fault (List Char) :=
  decodeLoop octets.length [] 0 octets

/-- The character that stands for octets that are no text. -/
def replacement : Char := Char.ofNat 0xFFFD

/-- Reads at most `fuel` characters leniently; `done` holds those read, the last first. -/
def decodeLossyLoop : Nat → List Char → List UInt8 → List Char
  | _, done, [] => done.reverse
  | 0, done, _ => done.reverse
  | fuel + 1, done, a :: rest =>
    match readChar a rest with
    | .char c rest => decodeLossyLoop fuel (c :: done) rest
    | .invalid _ rest => decodeLossyLoop fuel (replacement :: done) rest
    | .cut => (replacement :: done).reverse

/-- The characters of octets, with one replacement character for each longest prefix that
begins no character. -/
def decodeLossy (octets : List UInt8) : List Char :=
  decodeLossyLoop octets.length [] octets

/-- The text of octets, or `none`. -/
def decode? (octets : List UInt8) : Option String :=
  (decode octets).toOption.map String.ofList

end SymbolQuery.Text
