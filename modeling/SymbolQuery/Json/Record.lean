/-
Typed values out of JSON values.

A record is written as an object of its fields, or as an array of them in the order
in which the record declares them. Keys that a record does not know are passed over.
A field is required, optional or has a default; the three differ in what a missing
key and a short array mean. Several faults can stand in one record, and the one
that comes first is reported: a value of the wrong form at its place in the object,
then the missing fields in the order of their declaration.

A choice of forms without a tag takes the first form that fits.
-/
import SymbolQuery.Json.Printer
import SymbolQuery.Text.Blank

set_option autoImplicit false

namespace SymbolQuery.Json

/-! ## Faults -/

/-- Why a JSON value is not of the wanted type. -/
inductive ReadFault
  | wrongType (found wanted : String)
  | wrongValue (found wanted : String)
  | wrongLength (length : Nat) (wanted : String)
  | missingField (name : String)
  | duplicateField (name : String)
  | unknownVariant (name : String) (known : List String)
  | noVariant (choice : String)
  | other (text : String)
  deriving DecidableEq, Repr

/-- A text between grave accents. -/
def accented (s : String) : String := "\x60" ++ s ++ "\x60"

/-- The wording of a fault. -/
def ReadFault.message : ReadFault → String
  | .wrongType found wanted => s!"invalid type: {found}, expected {wanted}"
  | .wrongValue found wanted => s!"invalid value: {found}, expected {wanted}"
  | .wrongLength length wanted => s!"invalid length {length}, expected {wanted}"
  | .missingField name => "missing field " ++ accented name
  | .duplicateField name => "duplicate field " ++ accented name
  | .unknownVariant name known =>
    "unknown variant " ++ accented name ++ ", expected one of "
      ++ String.intercalate ", " (known.map accented)
  | .noVariant choice => s!"data did not match any variant of untagged enum {choice}"
  | .other text => text

/-- How a character of a text is shown in a fault. -/
def shownChar (c : Char) : List Char :=
  if c = '"' then ['\\', '"']
  else if c = '\\' then ['\\', '\\']
  else if c = '\n' then ['\\', 'n']
  else if c = '\r' then ['\\', 'r']
  else if c = '\t' then ['\\', 't']
  else if c.toNat = 0 then ['\\', '0']
  else if c.toNat < 0x20 ∨ c.toNat = 0x7F then
    ['\\', 'u', '\x7b'] ++ Nat.toDigits 16 c.toNat ++ ['\x7d']
  else [c]

/-- How a value is named in a fault. -/
def found : Json → String
  | .null => "null"
  | .bool true => "boolean " ++ accented "true"
  | .bool false => "boolean " ++ accented "false"
  | .num (.int i) => "integer " ++ accented (toString i)
  | .num (.real bits) => "floating point " ++ accented (Real.text bits)
  | .str s => "string \"" ++ String.ofList (s.toList.flatMap shownChar) ++ "\""
  | .arr _ => "sequence"
  | .obj _ => "map"

/-- A typed value, or what is wrong. -/
abbrev Decoded (α : Type) := Except ReadFault α

/-! ## Plain values -/

/-- Any value, as it is. -/
def asValue (v : Json) : Decoded Json := .ok v

/-- A text. -/
def asText : Json → Decoded String
  | .str s => .ok s
  | v => .error (.wrongType v.found "a string")

/-- A truth value. -/
def asBool : Json → Decoded Bool
  | .bool b => .ok b
  | v => .error (.wrongType v.found "a boolean")

/-- An integer between two bounds, of a type of the given name. -/
def asIntIn (low high : Int) (type : String) : Json → Decoded Int
  | .num (.int i) =>
    if low ≤ i ∧ i ≤ high then .ok i
    else .error (.wrongValue (found (.num (.int i))) type)
  | v => .error (.wrongType v.found type)

/-- A natural number of at most `high`, of a type of the given name. -/
def asNatIn (high : Nat) (type : String) (v : Json) : Decoded Nat :=
  (asIntIn 0 high type v).map Int.toNat

/-- An unsigned integer of 8 bits. -/
def asU8 (v : Json) : Decoded Nat := asNatIn 255 "u8" v

/-- An unsigned integer of 32 bits. -/
def asU32 (v : Json) : Decoded Nat := asNatIn 4294967295 "u32" v

/-- An unsigned integer of 64 bits. -/
def asU64 (v : Json) : Decoded Nat := asNatIn 18446744073709551615 "u64" v

/-- An unsigned integer of the width of a size. -/
def asSize (v : Json) : Decoded Nat := asNatIn 18446744073709551615 "usize" v

/-- A signed integer of 32 bits. -/
def asI32 (v : Json) : Decoded Int := asIntIn (-2147483648) 2147483647 "i32" v

/-- Null, or a value read by `read`. -/
def asOption {α : Type} (read : Json → Decoded α) : Json → Decoded (Option α)
  | .null => .ok none
  | v => (read v).map some

/-- Items read one after the other. -/
def readAll {α : Type} (read : Json → Decoded α) : List Json → Decoded (List α)
  | [] => .ok []
  | v :: rest =>
    match read v with
    | .error e => .error e
    | .ok a =>
      match readAll read rest with
      | .error e => .error e
      | .ok as => .ok (a :: as)

/-- An array of items read by `read`. -/
def asList {α : Type} (read : Json → Decoded α) : Json → Decoded (List α)
  | .arr items => readAll read items
  | v => .error (.wrongType v.found "a sequence")

/-- The first form that fits. -/
def firstOf {α : Type} (choice : String) : List (Json → Decoded α) → Json → Decoded α
  | [], _ => .error (.noVariant choice)
  | read :: more, v =>
    match read v with
    | .ok a => .ok a
    | .error _ => firstOf choice more v

/-- One of the named variants. -/
def asVariant {α : Type} (variants : List (String × α)) : Json → Decoded α
  | .str s =>
    match variants.find? (fun v => v.1 == s) with
    | some v => .ok v.2
    | none => .error (.unknownVariant s (variants.map Prod.fst))
  | .obj [(s, inner)] =>
    match variants.find? (fun v => v.1 == s) with
    | some v => if inner.isNull then .ok v.2 else .error (.wrongType inner.found "unit variant")
    | none => .error (.unknownVariant s (variants.map Prod.fst))
  | .obj _ => .error (.wrongValue "map" "map with a single key")
  | v => .error (.wrongType v.found "string or map")

/-! ## Records -/

/-- What the fields of a record are read from. -/
inductive Source
  | named (fields : List (String × Json))
  | listed (items : List Json)

/-- The type of a record: its name in faults and the number of its fields. -/
structure RecordType where
  name : String
  size : Nat

/-- A record type with the number of its fields, as a fault names it. -/
def RecordType.counted (type : RecordType) : String :=
  s!"{type.name} with {type.size} " ++ (if type.size = 1 then "element" else "elements")

/-- Fields read so far, or the first fault with its place. -/
structure Fields (α : Type) where
  result : Except (Nat × ReadFault) α

namespace Fields

/-- No field. -/
def pure {α : Type} (a : α) : Fields α := ⟨.ok a⟩

/-- Joins fields; of two faults the one with the earlier place is kept. -/
def seq {α β : Type} (f : Fields (α → β)) (a : Fields α) : Fields β :=
  ⟨match f.result, a.result with
    | .ok g, .ok x => .ok (g x)
    | .error e, .ok _ => .error e
    | .ok _, .error e => .error e
    | .error d, .error e => .error (if e.1 < d.1 then e else d)⟩

instance : Pure Fields := ⟨Fields.pure⟩

instance : Functor Fields where
  map f a := seq (Fields.pure f) a

instance : Seq Fields where
  seq f a := seq f (a ())

/-- Fields one after the other, as a list. -/
def all {α : Type} : List (Fields α) → Fields (List α)
  | [] => pure []
  | f :: rest => seq (seq (pure List.cons) f) (all rest)

end Fields

/-- The values under any of the names, each with its place. -/
def occurrences (names : List String) : Nat → List (String × Json) → List (Nat × Json)
  | _, [] => []
  | i, (k, v) :: rest =>
    if names.contains k then (i, v) :: occurrences names (i + 1) rest
    else occurrences names (i + 1) rest

/-- A field that is read by `read` where it is present. `absent` stands for a missing key, `short`
for an array that ends before it; without them either is a fault. -/
def fieldWith {α : Type} (type : RecordType) (s : Source) (index : Nat) (names : List String)
    (read : Json → Decoded α) (absent short : Option α) : Fields α :=
  let name := names.headD ""
  let place {β : Type} (i : Nat) (r : Decoded β) : Except (Nat × ReadFault) β :=
    r.mapError fun e => (i, e)
  match s with
  | .named fields =>
    match occurrences names 0 fields with
    | [] =>
      match absent with
      | some a => ⟨.ok a⟩
      | none => ⟨.error (fields.length + index, .missingField name)⟩
    | [(i, v)] => ⟨place i (read v)⟩
    | (i, v) :: (j, _) :: _ =>
      match read v with
      | .ok _ => ⟨.error (j, .duplicateField name)⟩
      | .error e => ⟨.error (i, e)⟩
  | .listed items =>
    match items[index]? with
    | some v => ⟨place index (read v)⟩
    | none =>
      match short with
      | some a => ⟨.ok a⟩
      | none => ⟨.error (index, .wrongLength index type.counted)⟩

/-- A field that must be there. -/
def required {α : Type} (type : RecordType) (s : Source) (index : Nat) (name : String)
    (read : Json → Decoded α) : Fields α :=
  fieldWith type s index [name] read none none

/-- A field whose key may be missing, or null, but which an array must spell out. -/
def optional {α : Type} (type : RecordType) (s : Source) (index : Nat) (name : String)
    (read : Json → Decoded α) : Fields (Option α) :=
  fieldWith type s index [name] (asOption read) (some none) none

/-- A field that may be missing, or null, in both forms. -/
def optionalTail {α : Type} (type : RecordType) (s : Source) (index : Nat) (names : List String)
    (read : Json → Decoded α) : Fields (Option α) :=
  fieldWith type s index names (asOption read) (some none) (some none)

/-- A field that has a default where it is missing; null is no value for it. -/
def defaulted {α : Type} (type : RecordType) (s : Source) (index : Nat) (name : String)
    (read : Json → Decoded α) (value : α) : Fields α :=
  fieldWith type s index [name] read (some value) (some value)

/-- The result of fields, without the places. -/
def Fields.toDecoded {α : Type} (f : Fields α) : Decoded α := f.result.mapError Prod.snd

/-- Reads a record written as an object only. -/
def readNamed {α : Type} (type : RecordType) (fields : Source → Fields α) : Json → Decoded α
  | .obj entries => (fields (.named entries)).toDecoded
  | v => .error (.wrongType v.found type.name)

/-- Reads a record written as an object, or as an array of its fields. -/
def readRecord {α : Type} (type : RecordType) (fields : Source → Fields α) : Json → Decoded α
  | .obj entries => (fields (.named entries)).toDecoded
  | .arr items =>
    match (fields (.listed items)).toDecoded with
    | .error e => .error e
    | .ok a =>
      if items.length ≤ type.size then .ok a
      else .error (.wrongLength items.length "fewer elements in array")
  | v => .error (.wrongType v.found type.name)

end SymbolQuery.Json
