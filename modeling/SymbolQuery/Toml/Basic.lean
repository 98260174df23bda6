/-
TOML values, and how one table is laid over another.

A table is a list of entries, each key once. Laid over another, a table keeps what it
does not name: where both have a table the two are laid over each other, and anywhere
else the entry on top replaces the one below.
-/
import SymbolQuery.Json.Basic

set_option autoImplicit false

namespace SymbolQuery

/-- A TOML value. -/
inductive Toml
  | bool (value : Bool)
  | int (value : Int)
  /-- A double-precision number, by its octets. -/
  | real (bits : UInt64)
  | str (text : String)
  /-- A date, a time or both, in their plain form. -/
  | moment (text : String)
  | arr (items : List Toml)
  | table (entries : List (String × Toml))
  deriving Repr, Inhabited

namespace Toml

/-! ## Tables -/

/-- Puts a value under a key, in place of the one that is there. -/
def insert (key : String) (value : Toml) : List (String × Toml) → List (String × Toml)
  | [] => [(key, value)]
  | (k, v) :: rest => if k = key then (key, value) :: rest else (k, v) :: insert key value rest

/-- The value under a path of keys; the empty path leads to the value itself. -/
def path? : List String → Toml → Option Toml
  | [], v => some v
  | key :: keys, .table entries => (entries.lookup key).bind (path? keys)
  | _ :: _, _ => none

/-! ## Laying a table over another -/

mutual

/-- What stands where a value is laid over another, if there is one. -/
def laidOver (below : Option Toml) : Toml → Toml
  | .table entries =>
    match below with
    | some (.table others) => .table (overlay others entries)
    | _ => .table entries
  | v => v

/-- A table laid over another: the entries of the second, one after the other, are laid over those
of the first. -/
def overlay (below : List (String × Toml)) : List (String × Toml) → List (String × Toml)
  | [] => below
  | (k, v) :: rest => overlay (insert k (laidOver (below.lookup k) v) below) rest

end

/-! ## Comparing -/

mutual

/-- Whether two values are the same, with the entries of their tables in the same order. -/
def same : Toml → Toml → Bool
  | .bool a, .bool b => a == b
  | .int a, .int b => a == b
  | .real a, .real b => a == b
  | .str a, .str b => a == b
  | .moment a, .moment b => a == b
  | .arr a, .arr b => sameItems a b
  | .table a, .table b => sameEntries a b
  | _, _ => false

/-- `same` item by item. -/
def sameItems : List Toml → List Toml → Bool
  | [], [] => true
  | v :: vs, w :: ws => same v w && sameItems vs ws
  | _, _ => false

/-- `same` entry by entry. -/
def sameEntries : List (String × Toml) → List (String × Toml) → Bool
  | [], [] => true
  | (k, v) :: vs, (l, w) :: ws => k == l && same v w && sameEntries vs ws
  | _, _ => false

end

mutual

theorem same_iff (v w : Toml) : same v w = true ↔ v = w := by
  cases v with
  | arr a => cases w <;> simp [same, sameItems_iff a]
  | table a => cases w <;> simp [same, sameEntries_iff a]
  | bool _ | int _ | real _ | str _ | moment _ => cases w <;> simp [same]

theorem sameItems_iff (vs ws : List Toml) : sameItems vs ws = true ↔ vs = ws := by
  match vs, ws with
  | [], [] | [], _ :: _ | _ :: _, [] => simp [sameItems]
  | v :: vs, w :: ws => simp [sameItems, same_iff v, sameItems_iff vs]

theorem sameEntries_iff (vs ws : List (String × Toml)) : sameEntries vs ws = true ↔ vs = ws := by
  match vs, ws with
  | [], [] | [], _ :: _ | _ :: _, [] => simp [sameEntries]
  | (k, v) :: vs, (l, w) :: ws => simp [sameEntries, same_iff v, sameEntries_iff vs]

end

/-- Values are compared by `same`. -/
instance : DecidableEq Toml := fun v w => decidable_of_iff _ (same_iff v w)

/-! ## As JSON -/

mutual

/-- The same value in JSON; a date is a text. -/
def toJson : Toml → Json
  | .bool b => .bool b
  | .int i => .ofInt i
  | .real bits => .num (.real bits)
  | .str s => .str s
  | .moment s => .str s
  | .arr items => .arr (itemsToJson items)
  | .table entries => Json.mkObj (entriesToJson entries)

/-- `toJson` of every item. -/
def itemsToJson : List Toml → List Json
  | [] => []
  | v :: rest => toJson v :: itemsToJson rest

/-- `toJson` of every entry's value. -/
def entriesToJson : List (String × Toml) → List (String × Json)
  | [] => []
  | (k, v) :: rest => (k, toJson v) :: entriesToJson rest

end

end Toml

end SymbolQuery
