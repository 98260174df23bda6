/-
Documents are named by `file://` identifiers. A path becomes one by percent coding
every octet that is not unreserved, and is read back by undoing that.

Decoding looks at a percent sign together with the two octets after it. Where those
are no two hexadecimal digits, the sign stays and the two octets are dropped.
-/
import SymbolQuery.Text.Utf8
import SymbolQuery.Text.Blank

set_option autoImplicit false

namespace SymbolQuery.Uri

/-! ## Percent coding -/

/-- The characters that stand for themselves. -/
def isUnreserved (c : Char) : Bool :=
  ('a' ≤ c && c ≤ 'z') || ('A' ≤ c && c ≤ 'Z') || ('0' ≤ c && c ≤ '9')
    || c == '/' || c == '.' || c == '-' || c == '_' || c == '~'

/-- An upper-case hexadecimal digit. -/
def hexDigit (n : Nat) : Char := if n < 10 then Char.ofNat (48 + n) else Char.ofNat (55 + n)

/-- A percent sign and the two digits of an octet. -/
def triple (b : UInt8) : List Char := ['%', hexDigit (b.toNat / 16), hexDigit (b.toNat % 16)]

/-- How a character of a path is written. -/
def encodeChar (c : Char) : List Char :=
  if isUnreserved c then [c] else (Text.encodeChar c).flatMap triple

/-- The value of an octet that is a hexadecimal digit. -/
def hexOctet? (b : UInt8) : Option UInt8 :=
  if 0x30 ≤ b ∧ b ≤ 0x39 then some (b - 0x30)
  else if 0x41 ≤ b ∧ b ≤ 0x46 then some (b - 0x41 + 10)
  else if 0x61 ≤ b ∧ b ≤ 0x66 then some (b - 0x61 + 10)
  else none

/-- Undoes percent coding. -/
def decodeOctets : List UInt8 → List UInt8
  | [] => []
  | b :: rest =>
    if b = 0x25 then
      match rest with
      | high :: low :: more =>
        match hexOctet? high, hexOctet? low with
        | some h, some l => (h * 16 + l) :: decodeOctets more
        | _, _ => b :: decodeOctets more
      | _ => [b]
    else b :: decodeOctets rest

/-- Undoes percent coding in a text; octets that are no text become replacement characters. -/
def percentDecode (s : String) : String :=
  String.ofList (Text.decodeLossy (decodeOctets (Text.encode s)))

/-! ## Paths -/

/-- What every identifier of a path begins with. -/
def scheme : List Char := ['f', 'i', 'l', 'e', ':', '/', '/']

/-- The identifier of an absolute path. -/
def ofPath (path : String) : String := String.ofList (scheme ++ path.toList.flatMap encodeChar)

/-- The path of an identifier; a text of another form is taken as a path. -/
def toPath (uri : String) : String :=
  match Text.dropLead? scheme uri.toList with
  | some path => percentDecode (String.ofList path)
  | none => uri

/-- The identifier of a document given by identifier or by absolute path. -/
def ofInput (input : String) : String :=
  if Text.contains input "://" then input else ofPath input

end SymbolQuery.Uri
