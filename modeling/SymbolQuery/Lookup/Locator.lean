/-
Resolving a request: fetching the symbols of its document and finding the one meant.
-/
import SymbolQuery.Lookup.Question
import SymbolQuery.Request
import SymbolQuery.Symbol.Locate

set_option autoImplicit false

namespace SymbolQuery.Lookup

variable {m : Type → Type} [Asking m]

/-- The symbols of a document. -/
def fetchSymbols (deadline : Nat) (uri : String) : m (Except CallFault (List Symbol)) := do
  let a ← Asking.ask deadline (.symbols uri)
  return Answer.reply "documentSymbol" a

/-- What is found in a forest for a target. -/
def resolveIn (forest : List Symbol) : LookupTarget → Resolution
  | .position p =>
    match Symbol.locateAt forest p with
    | some s => .found s
    | none => .failed (.noSymbolAt p)
  | .name name _ =>
    (Resolution.ofMatches (Symbol.named forest name)).getD (.failed (.noSymbolNamed name))

/-- Whatever is found makes sense. -/
theorem sound_resolveIn (forest : List Symbol) (target : LookupTarget) :
    (resolveIn forest target).Sound := by
  cases target with
  | position p =>
    simp only [resolveIn]
    split
    · exact Resolution.sound_found _
    · exact Resolution.sound_failed _
  | name name hint =>
    simp only [resolveIn]
    cases hmatches : Resolution.ofMatches (Symbol.named forest name) with
    | none => exact Resolution.sound_failed _
    | some r => exact Resolution.sound_of_ofMatches hmatches

/-- For a name the first symbol that has it is found. -/
theorem symbol?_resolveIn_name {forest : List Symbol} {name : String} {hint : Option Position} :
    (resolveIn forest (.name name hint)).symbol? = (Symbol.named forest name).head? := by
  rw [resolveIn]
  cases hnamed : Symbol.named forest name with
  | nil => rfl
  | cons s others =>
    cases hmatches : Resolution.ofMatches (s :: others) with
    | none => cases others <;> cases hmatches
    | some r => exact Resolution.symbol?_of_ofMatches hmatches

/-- What is found for a target in a document. -/
def resolveTarget (deadline : Nat) (uri : String) (target : LookupTarget) : m Resolution := do
  match ← fetchSymbols deadline uri with
  | .error fault => return .failed (.call fault)
  | .ok forest => return resolveIn forest target

/-- What is found for a request. -/
def resolve (deadline : Nat) (request : LookupRequest) : m (Except MalformedInput Resolution) :=
  match request.target with
  | .error e => return .error e
  | .ok target => do
    let r ← resolveTarget deadline request.uri target
    return .ok r

end SymbolQuery.Lookup
