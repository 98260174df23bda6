/-
JSON values.

A number is an integer of 64 bits, signed or unsigned, or a double-precision number;
the three kinds never mix, so `1` and `1.0` stay different values. The fields of an
object are a list of pairs. A value that was read has its keys in increasing order
and each key once, and `mkObj` builds such objects.
-/
set_option autoImplicit false

namespace SymbolQuery

/-! ## Entries under keys -/

section

variable {β : Type} {key : String} {entries : List (String × β)}

/-- What is found under a key stands under it. -/
theorem mem_of_lookup {v : β} (h : entries.lookup key = some v) : (key, v) ∈ entries := by
  obtain ⟨before, behind, rfl, -⟩ := List.lookup_eq_some_iff.mp h
  exact List.mem_append_right _ List.mem_cons_self

/-- Nothing is found under a key that no entry has. -/
theorem lookup_of_not_mem (h : key ∉ entries.map Prod.fst) : entries.lookup key = none := by
  cases hfound : entries.lookup key with
  | none => rfl
  | some v => exact absurd (List.mem_map_of_mem (mem_of_lookup hfound)) h

end

/-! ## Values -/

/-- A JSON number: an integer, or the octets of a double-precision number. -/
inductive Json.Number
  | int (value : Int)
  | real (bits : UInt64)
  deriving DecidableEq, Repr, Inhabited

/-- A JSON value. -/
inductive Json
  | null
  | bool (value : Bool)
  | num (value : Json.Number)
  | str (text : String)
  | arr (items : List Json)
  | obj (fields : List (String × Json))
  deriving Repr, Inhabited

namespace Json

/-! ## Building -/

/-- A natural number. -/
def ofNat (n : Nat) : Json := .num (.int n)

/-- An integer. -/
def ofInt (i : Int) : Json := .num (.int i)

/-- A text, or null. -/
def ofText? : Option String → Json
  | some s => .str s
  | none => .null

/-- A natural number, or null. -/
def ofNat? : Option Nat → Json
  | some n => ofNat n
  | none => .null

/-- Puts a field at its place in an object ordered by keys, replacing the one of that key. -/
def insertField (key : String) (value : Json) : List (String × Json) → List (String × Json)
  | [] => [(key, value)]
  | (k, v) :: rest =>
    if key < k then (key, value) :: (k, v) :: rest
    else if key = k then (key, value) :: rest
    else (k, v) :: insertField key value rest

/-- The fields in the order of their keys; of two with one key the later one counts. -/
def orderFields (fields : List (String × Json)) : List (String × Json) :=
  fields.foldl (fun done field => insertField field.1 field.2 done) []

/-- An object of the given fields, in the order of their keys. -/
def mkObj (fields : List (String × Json)) : Json := .obj (orderFields fields)

/-- A field that is left out when there is no value for it. -/
def field? (key : String) : Option Json → List (String × Json)
  | some v => [(key, v)]
  | none => []

/-! ## Looking -/

/-- The value under a key of an object. -/
def get? (key : String) : Json → Option Json
  | .obj fields => fields.lookup key
  | _ => none

/-- The value under a path of keys. -/
def path? : List String → Json → Option Json
  | [], v => some v
  | key :: keys, v => (v.get? key).bind (path? keys)

/-- Whether this is null. -/
def isNull : Json → Bool
  | .null => true
  | _ => false

/-- The text of a string value. -/
def text? : Json → Option String
  | .str s => some s
  | _ => none

/-- The items of an array. -/
def items? : Json → Option (List Json)
  | .arr items => some items
  | _ => none

/-- The fields of an object. -/
def fields? : Json → Option (List (String × Json))
  | .obj fields => some fields
  | _ => none

/-- The integer of a number value. -/
def int? : Json → Option Int
  | .num (.int i) => some i
  | _ => none

/-- The natural number of a number value. -/
def nat? (v : Json) : Option Nat :=
  match v.int? with
  | some (.ofNat n) => some n
  | _ => none

/-- The truth value of a Boolean value. -/
def bool? : Json → Option Bool
  | .bool b => some b
  | _ => none

/-- A value that is not null. -/
def nonNull : Json → Option Json
  | .null => none
  | v => some v

/-! ## Order and depth -/

mutual

/-- The same value with the keys of every object in increasing order. -/
def canonical : Json → Json
  | .arr items => .arr (canonicalItems items)
  | .obj fields => .obj (orderFields (canonicalFields fields))
  | v => v

/-- `canonical` of every item. -/
def canonicalItems : List Json → List Json
  | [] => []
  | v :: rest => canonical v :: canonicalItems rest

/-- `canonical` of every field's value. -/
def canonicalFields : List (String × Json) → List (String × Json)
  | [] => []
  | (k, v) :: rest => (k, canonical v) :: canonicalFields rest

end

mutual

/-- How deep arrays and objects are nested; a value that is neither has depth 0. -/
def depth : Json → Nat
  | .arr items => depthItems items + 1
  | .obj fields => depthFields fields + 1
  | _ => 0

/-- The largest depth among items. -/
def depthItems : List Json → Nat
  | [] => 0
  | v :: rest => max (depth v) (depthItems rest)

/-- The largest depth among the values of fields. -/
def depthFields : List (String × Json) → Nat
  | [] => 0
  | (_, v) :: rest => max (depth v) (depthFields rest)

end

mutual

/-- Whether two values are the same, key order included. -/
def same : Json → Json → Bool
  | .null, .null => true
  | .bool a, .bool b => a == b
  | .num a, .num b => decide (a = b)
  | .str a, .str b => a == b
  | .arr a, .arr b => sameItems a b
  | .obj a, .obj b => sameFields a b
  | _, _ => false

/-- `same` item by item. -/
def sameItems : List Json → List Json → Bool
  | [], [] => true
  | v :: vs, w :: ws => same v w && sameItems vs ws
  | _, _ => false

/-- `same` field by field. -/
def sameFields : List (String × Json) → List (String × Json) → Bool
  | [], [] => true
  | (k, v) :: vs, (l, w) :: ws => k == l && same v w && sameFields vs ws
  | _, _ => false

end

instance : BEq Json := ⟨same⟩

end Json

end SymbolQuery
