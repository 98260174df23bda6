/-
What resolving a request gives: a symbol, further symbols of the same name, or the
reason why there is none.
-/
import SymbolQuery.Fault
import SymbolQuery.Symbol.Basic

set_option autoImplicit false

namespace SymbolQuery

/-- Why no symbol was found. -/
inductive LocateFault
  | noSymbolAt (p : Position)
  | noSymbolNamed (name : String)
  | call (fault : CallFault)
  | other (text : String)
  deriving DecidableEq, Repr

/-- The wording of a fault. -/
def LocateFault.message : LocateFault → String
  | .noSymbolAt p => s!"No symbol found at position {p.text}"
  | .noSymbolNamed name => s!"No symbol named '{name}' found in document"
  | .call fault => fault.message
  | .other text => text

/-- The outcome of resolving a request. -/
structure Resolution where
  /-- The symbol found. -/
  symbol? : Option Symbol := none
  /-- Whether exactly one symbol matches. -/
  isUnique : Bool := false
  /-- The other matches, where there are any. -/
  alternatives? : Option (List Symbol) := none
  /-- Why there is no symbol. -/
  error? : Option String := none
  deriving Repr, Inhabited

namespace Resolution

/-- The only symbol that matches. -/
def found (s : Symbol) : Resolution := { symbol? := some s, isUnique := true }

/-- The first of the matching symbols, with the rest beside it. -/
def ofMatches : List Symbol → Option Resolution
  | [] => none
  | [s] => some (found s)
  | s :: others => some { symbol? := some s, alternatives? := some others }

/-- No symbol is found. -/
def failed (fault : LocateFault) : Resolution := { error? := some fault.message }

/-- The number of other matches. -/
def alternativeCount (r : Resolution) : Nat := (r.alternatives?.getD []).length

/-- The JSON object of a resolution. -/
def toJson (r : Resolution) : Json :=
  .obj (Json.field? "symbol" (r.symbol?.map Symbol.toJson)
    ++ [("isUnique", .bool r.isUnique)]
    ++ Json.field? "alternatives" (r.alternatives?.map fun l => .arr (Symbol.toJsonList l))
    ++ Json.field? "error" (r.error?.map .str))

/-! ## What the fields have to do with each other -/

/-- **A resolution that makes sense**: a symbol or an error, and not both; and other matches only
beside a symbol, which is then not the only one. -/
structure Sound (r : Resolution) : Prop where
  symbol : r.symbol? = none ↔ r.error?.isSome = true
  unique : r.isUnique = true ↔ r.symbol?.isSome = true ∧ r.alternatives? = none
  others : ∀ l, r.alternatives? = some l →
    l ≠ [] ∧ r.isUnique = false ∧ r.symbol?.isSome = true

theorem sound_found (s : Symbol) : (found s).Sound := by
  constructor <;> simp [found]

theorem sound_failed (fault : LocateFault) : (failed fault).Sound := by
  constructor <;> simp [failed]

theorem sound_of_ofMatches {l : List Symbol} {r : Resolution} (h : ofMatches l = some r) :
    r.Sound := by
  rcases l with _ | ⟨s, _ | ⟨other, others⟩⟩
  · cases h
  · cases h
    exact sound_found s
  · cases h
    constructor <;> simp

/-- The first match is the symbol. -/
theorem symbol?_of_ofMatches {s : Symbol} {others : List Symbol} {r : Resolution}
    (h : ofMatches (s :: others) = some r) : r.symbol? = some s := by
  cases others <;> cases h <;> rfl

/-- The symbol that is gone on with: none where there is an error. -/
def accepted (r : Resolution) : Option Symbol :=
  match r.error? with
  | some _ => none
  | none => r.symbol?

/-- An error leaves no symbol anyway. -/
theorem Sound.accepted_eq {r : Resolution} (h : r.Sound) : r.accepted = r.symbol? := by
  unfold accepted
  cases herror : r.error? with
  | none => rfl
  | some text => exact (h.symbol.mpr (by rw [herror]; rfl)).symm

end Resolution

end SymbolQuery
