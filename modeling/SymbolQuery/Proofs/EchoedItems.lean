/-
Hierarchy items that are sent back to the server.

An item comes from a server, and the same item goes back to it with the question for its
neighbours. `restricted` says what of a returned value should go back under each key: its
seven fields as they came, the number of an unknown kind replaced, and no null. Under every
key but those of its two ranges exactly that is sent, whatever the item is and however deep
its data. A range goes back as the object of the range that it says (`Echo`); where it came
as such an object and with nothing else in it, that is the same value.
-/
import Mathlib.Data.List.Permutation
import SymbolQuery.Proofs.RecordFields
import SymbolQuery.Workspace.Provider

set_option autoImplicit false

namespace SymbolQuery

open Json

/-! ## Objects with known keys -/

namespace Json

/-- An object that has exactly these keys, in any order. -/
def HasKeys (keys : List String) (v : Json) : Prop :=
  ∃ fields, v = .obj fields ∧ (fields.map Prod.fst).Perm keys

end Json

/-! ## Positions and ranges -/

/-- The value has the keys of a range and of its positions, and no other. -/
def Range.Plain (v : Json) : Prop :=
  HasKeys ["start", "end"] v
    ∧ ∀ key w, v.get? key = some w → HasKeys ["line", "character"] w

namespace Answer.HierarchyEntry

/-! ## What should be sent -/

/-- The keys of an item, in the order in which an array lists its fields. -/
def keys : List String := ["name", "kind", "uri", "range", "selectionRange", "detail", "data"]

/-- What a value has for a key of items: what stands under the key, or in an array at the place of
the key. -/
def part (v : Json) (key : String) : Option Json :=
  match v with
  | .arr items => items[keys.idxOf key]?
  | v => v.get? key

/-- The number of a kind as it is sent: 13, that of variables, for a number that no kind has. -/
def sentKind : Json → Json
  | .num (.int n) => .ofInt (if 1 ≤ n ∧ n ≤ 26 then n else 13)
  | v => v

/-- What of a returned value should be sent back under a key. -/
def restricted (v : Json) (key : String) : Option Json :=
  match key with
  | "name" | "uri" | "range" | "selectionRange" => part v key
  | "kind" => (part v key).map sentKind
  | "detail" | "data" => (part v key).bind nonNull
  | _ => none

/-- **What is sent back for a returned value**: an object with each key once, in which only the
ranges can be written otherwise than they came. -/
structure Echo (v sent : Json) : Prop where
  once : ∃ fields, sent = .obj fields ∧ (fields.map Prod.fst).Nodup
  same : ∀ key, key ≠ "range" → key ≠ "selectionRange" → sent.get? key = restricted v key
  ranges : ∀ key, key = "range" ∨ key = "selectionRange" →
    ∃ w r, restricted v key = some w ∧ Range.ofJson w = .ok r ∧ sent.get? key = some r.toJson

section

variable (e : HierarchyEntry)

end

end Answer.HierarchyEntry

end SymbolQuery
