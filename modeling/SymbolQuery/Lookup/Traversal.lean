/-
Walking a hierarchy one level: preparing its root and asking for both sides at once.

A side without an answer is an empty side, and the other one is not touched by that.
Only where the provider refuses to prepare there is no result at all.
-/
import SymbolQuery.Config
import SymbolQuery.Lookup.Question

set_option autoImplicit false

namespace SymbolQuery.Lookup

/-! ## Names and deadlines -/

/-- The operation that prepares a root. -/
def prepareOperation : HierarchyKind → String
  | .call => "prepareCallHierarchy"
  | .type => "prepareTypeHierarchy"

/-- The deadline for preparing a root. -/
def prepareDeadline (t : Timeouts) : HierarchyKind → Nat
  | .call => t.callPrepare
  | .type => t.typePrepare

/-- The operation that asks for a side. -/
def branchOperation : HierarchyKind → Direction → String
  | .call, .incoming => "callHierarchy/incomingCalls"
  | .call, .outgoing => "callHierarchy/outgoingCalls"
  | .type, .incoming => "typeHierarchy/supertypes"
  | .type, .outgoing => "typeHierarchy/subtypes"

/-- The deadline for a side. -/
def branchDeadline (t : Timeouts) : HierarchyKind → Nat
  | .call => t.callBranch
  | .type => t.typeBranch

/-! ## Walking -/

variable {m : Type → Type} [Asking m]

/-- The edges on one side of a root. -/
def branch (t : Timeouts) (kind : HierarchyKind) (root : HierarchyItem) (direction : Direction) :
    m (List Edge) := do
  let a ← Asking.ask (branchDeadline t kind) (.neighbours kind direction root)
  match Answer.reply (branchOperation kind direction) a with
  | .ok edges => return edges
  | .error fault => do
    Asking.warn (.call fault)
    return []

/-- The root at a position with its edges on both sides. -/
def traverse (t : Timeouts) (uri : String) (p : Position) (kind : HierarchyKind) :
    m (Option HierarchyResult) := do
  let a ← Asking.ask (prepareDeadline t kind) (.prepare kind uri p)
  match Answer.reply (prepareOperation kind) a with
  | .error (.failed operation source) => do
    Asking.warn (.call (.failed operation source))
    return none
  | .error fault => do
    Asking.warn (.call fault)
    return some (HierarchyResult.empty kind)
  | .ok [] => return some (HierarchyResult.empty kind)
  | .ok (root :: _) => do
    let (incoming, outgoing) ←
      Asking.both (branch t kind root .incoming) (branch t kind root .outgoing)
    return some ⟨kind, some root, incoming, outgoing⟩

end SymbolQuery.Lookup
