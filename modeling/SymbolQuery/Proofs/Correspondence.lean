/-
Relations between two readings of lookups.

A lookup is written over any monad that can ask, so it has a reading in each of them. A
relation between two readings holds of every lookup if it holds of questions and of
warnings and if it is kept by the ways in which lookups are put together. This file goes
through the text of the lookups once, for all such relations. It also names the lookups
that callers make as data, so that what holds of each of them is one statement.
-/
import SymbolQuery.Lookup.Facade

set_option autoImplicit false

namespace SymbolQuery

/-- A relation between two readings that is kept by all that lookups are made with. -/
structure Correspondence (m n : Type → Type) [Asking m] [Asking n] where
  Rel : {α : Type} → m α → n α → Prop
  pure : ∀ {α : Type} (a : α), Rel (Pure.pure a) (Pure.pure a)
  bind : ∀ {α β : Type} {x : m α} {y : n α} {f : α → m β} {g : α → n β},
    Rel x y → (∀ a, Rel (f a) (g a)) → Rel (x >>= f) (y >>= g)
  ask : ∀ (deadline : Nat) (q : Question), Rel (Asking.ask deadline q) (Asking.ask deadline q)
  both : ∀ {α β : Type} {x : m α} {y : n α} {x' : m β} {y' : n β},
    Rel x y → Rel x' y' → Rel (Asking.both x x') (Asking.both y y')
  window : ∀ {α γ : Type} (width : Nat) {f : γ → m α} {g : γ → n α},
    (∀ c, Rel (f c) (g c)) → ∀ cs : List γ,
      Rel (Asking.window width (cs.map f)) (Asking.window width (cs.map g))
  warn : ∀ warning : Warning, Rel (Asking.warn warning) (Asking.warn warning)

namespace Correspondence

open Lookup

variable {m n : Type → Type} [Asking m] [Asking n] (r : Correspondence m n)

/-! ## Parts of lookups -/

/-- A document is one question, and every fault means that there is no text. -/
theorem document (deadline : Nat) (uri : String) :
    r.Rel (document deadline uri) (document deadline uri) := by
  refine r.bind (r.ask _ _) ?_
  rintro ((_ | _) | (_ | _)) <;> exact r.pure _

theorem preview (deadline : Nat) (uri : String) (line : Nat) :
    r.Rel (preview deadline uri line) (preview deadline uri line) := by
  refine r.bind (r.document deadline uri) ?_
  rintro (_ | _) <;> exact r.pure _

/-- Previews ask for each document once: what was read for the places before is carried along. -/
theorem previewsFrom (deadline : Nat) (read : List (String × Option String))
    (ls : List Location) :
    r.Rel (previewsFrom deadline read ls) (previewsFrom deadline read ls) := by
  induction ls generalizing read with
  | nil => exact r.pure []
  | cons l rest ih =>
    rw [Lookup.previewsFrom, Lookup.previewsFrom]
    -- what has been read is the same in both readings, so both look in the same place
    cases read.lookup l.uri with
    | some text => exact r.bind (ih read) fun _ => r.pure _
    | none =>
      refine r.bind (r.document deadline l.uri) fun text => ?_
      exact r.bind (ih ((l.uri, text) :: read)) fun _ => r.pure _

theorem previews (deadline : Nat) (ls : List Location) (limit : Nat) :
    r.Rel (previews deadline ls limit) (previews deadline ls limit) :=
  r.bind (r.previewsFrom deadline [] (ls.take limit)) fun _ => r.pure _

theorem wordAt (deadline : Nat) (uri : String) (p : Position) :
    r.Rel (wordAt deadline uri p) (wordAt deadline uri p) := by
  refine r.bind (r.document deadline uri) ?_
  rintro (_ | _) <;> exact r.pure _

theorem fetchSymbols (deadline : Nat) (uri : String) :
    r.Rel (fetchSymbols deadline uri) (fetchSymbols deadline uri) :=
  r.bind (r.ask _ _) fun _ => r.pure _

/-- Which symbol a target means is decided without asking, once the symbols are there. -/
theorem resolveTarget (deadline : Nat) (uri : String) (target : LookupTarget) :
    r.Rel (resolveTarget deadline uri target) (resolveTarget deadline uri target) := by
  refine r.bind (r.fetchSymbols deadline uri) ?_
  rintro (_ | _) <;> exact r.pure _

/-- Whether a symbol is taken depends on what was found; nothing is asked, but a warning may be
left. -/
theorem accept (target : LookupTarget) (found : Resolution) :
    r.Rel (accept target found) (accept target found) := by
  unfold Lookup.accept
  cases found.error? with
  | some text => exact r.bind (r.warn _) fun _ => r.pure _
  | none =>
    cases target with
    | position p => exact r.pure _
    | name name hint =>
      dsimp only
      split
      · exact r.pure _
      · exact r.bind (r.warn _) fun _ => r.pure _

/-- A position is taken as it is, so only a name makes a lookup ask where it stands. -/
theorem queryPoint (t : Timeouts) (uri : String) (target : LookupTarget) :
    r.Rel (queryPoint t uri target) (queryPoint t uri target) := by
  cases target with
  | position p => exact r.pure _
  | name name hint =>
    refine r.bind (r.resolveTarget t.symbols uri _) fun found => ?_
    exact r.bind (r.accept _ found) fun _ => r.pure _

/-- A question that has failed leaves a warning and an empty table. -/
theorem degrade (kind : TableKind) (fault : CallFault) :
    r.Rel (degrade kind fault) (degrade kind fault) :=
  r.bind (r.warn _) fun _ => r.pure _

/-- A request without a target ends the lookup before it has asked anything. -/
theorem withTarget {α : Type} (request : LookupRequest) {f : LookupTarget → m α}
    {g : LookupTarget → n α} (h : ∀ target, r.Rel (f target) (g target)) :
    r.Rel (withTarget request f) (withTarget request g) := by
  rw [Lookup.withTarget, Lookup.withTarget]
  cases request.target with
  | error e => exact r.pure _
  | ok target => exact r.bind (h target) fun _ => r.pure _

theorem hoverText (c : Config) (uri : String) (p : Position) :
    r.Rel (hoverText c uri p) (hoverText c uri p) := by
  refine r.bind (r.ask _ _) ?_
  rintro ((_ | _) | (_ | (_ | _))) <;> exact r.pure _

/-- One side of a hierarchy is one question. A fault empties this side and leaves a warning. -/
theorem branch (t : Timeouts) (kind : HierarchyKind) (root : HierarchyItem)
    (direction : Direction) :
    r.Rel (branch t kind root direction) (branch t kind root direction) := by
  refine r.bind (r.ask _ _) fun a => ?_
  cases Answer.reply (branchOperation kind direction) a with
  | ok edges => exact r.pure _
  | error fault => exact r.bind (r.warn _) fun _ => r.pure _

/-- Both sides of a hierarchy are asked for at a time, from the first of the items there are. -/
theorem traverse (t : Timeouts) (uri : String) (p : Position) (kind : HierarchyKind) :
    r.Rel (traverse t uri p kind) (traverse t uri p kind) := by
  refine r.bind (r.ask _ _) fun a => ?_
  rcases Answer.reply (prepareOperation kind) a with (fault | roots)
  · cases fault <;> exact r.bind (r.warn _) fun _ => r.pure _
  · cases roots with
    | nil => exact r.pure _
    | cons root _ =>
      exact r.bind (r.both (r.branch t kind root .incoming) (r.branch t kind root .outgoing))
        fun _ => r.pure _

/-! ## Lookups -/

theorem resolve (deadline : Nat) (request : LookupRequest) :
    r.Rel (resolve deadline request) (resolve deadline request) := by
  rw [Lookup.resolve, Lookup.resolve]
  cases request.target with
  | error e => exact r.pure _
  | ok target => exact r.bind (r.resolveTarget deadline request.uri target) fun _ => r.pure _

/-- Places are asked for at a position, and then previewed. -/
theorem locationsAt (c : Config) (query : LocationQuery) (uri : String) (target : LookupTarget) :
    r.Rel (locationsAt c query uri target) (locationsAt c query uri target) := by
  refine r.bind (r.queryPoint c.timeouts uri target) ?_
  rintro (_ | point)
  · exact r.pure _
  · refine r.bind (r.ask _ _) fun a => ?_
    cases Answer.reply query.label a with
    | error fault => exact r.degrade _ fault
    | ok found => exact r.bind (r.previews _ found _) fun _ => r.pure _

theorem locations (c : Config) (query : LocationQuery) (request : LookupRequest) :
    r.Rel (locations c query request) (locations c query request) :=
  r.withTarget request (r.locationsAt c query request.uri)

theorem hoverAt (c : Config) (uri : String) (target : LookupTarget) :
    r.Rel (hoverAt c uri target) (hoverAt c uri target) := by
  refine r.bind (r.queryPoint c.timeouts uri target) ?_
  rintro (_ | point)
  · exact r.pure _
  · refine r.bind (r.ask _ _) fun a => ?_
    rcases Answer.reply "hover" a with (fault | (_ | h))
    · exact r.degrade _ fault
    · exact r.pure _
    · -- the name is known from the request, or it is the word in the document
      cases point.symbol with
      | some s => exact r.bind (r.pure _) fun _ => r.pure _
      | none =>
        exact r.bind (r.wordAt _ uri _) fun _ => r.bind (r.pure _) fun _ => r.pure _

theorem hover (c : Config) (request : LookupRequest) :
    r.Rel (hover c request) (hover c request) :=
  r.withTarget request (r.hoverAt c request.uri)

/-- The hovers of a document's symbols are asked for in a window, and the rows are made of them. -/
theorem documentSymbolsIn (c : Config) (uri : String) :
    r.Rel (documentSymbolsIn c uri) (documentSymbolsIn c uri) := by
  refine r.bind (r.fetchSymbols c.timeouts.symbols uri) ?_
  rintro (fault | forest)
  · exact r.degrade _ fault
  · have hhover : ∀ e : Symbol × Option Symbol,
        r.Rel (Lookup.hoverText c uri e.1.anchor) (Lookup.hoverText c uri e.1.anchor) :=
      fun e => r.hoverText c uri e.1.anchor
    exact r.bind (r.window hoverWidth hhover _) fun _ => r.pure _

theorem documentSymbols (c : Config) (uri : String) :
    r.Rel (documentSymbols c uri) (documentSymbols c uri) := by
  rw [Lookup.documentSymbols, Lookup.documentSymbols]
  by_cases hblank : Text.isBlankText uri
  · rw [if_pos hblank, if_pos hblank]
    exact r.pure _
  · rw [if_neg hblank, if_neg hblank]
    exact r.bind (r.documentSymbolsIn c uri) fun _ => r.pure _

/-- Children are a part of the symbols that the target was found in, and need no other question. -/
theorem childrenOf (c : Config) (uri : String) (depth : ChildDepth) (target : LookupTarget) :
    r.Rel (childrenOf c uri depth target) (childrenOf c uri depth target) := by
  refine r.bind (r.resolveTarget _ uri target) fun found => ?_
  refine r.bind (r.accept target found) ?_
  rintro (_ | _) <;> exact r.pure _

theorem children (c : Config) (request : LookupRequest) (depth : Option ChildDepth) :
    r.Rel (children c request depth) (children c request depth) :=
  r.withTarget request (r.childrenOf c request.uri _)

theorem hierarchyAt (c : Config) (kind : HierarchyKind) (uri : String) (target : LookupTarget) :
    r.Rel (hierarchyAt c kind uri target) (hierarchyAt c kind uri target) := by
  refine r.bind (r.queryPoint c.timeouts uri target) ?_
  rintro (_ | point)
  · exact r.pure _
  · refine r.bind (r.traverse c.timeouts uri point.position kind) ?_
    rintro (_ | _) <;> exact r.pure _

theorem hierarchy (c : Config) (kind : HierarchyKind) (request : LookupRequest) :
    r.Rel (hierarchy c kind request) (hierarchy c kind request) :=
  r.withTarget request (r.hierarchyAt c kind request.uri)

end Correspondence

/-! ## Lookups as data -/

namespace Lookup

/-- A lookup that a caller makes. -/
inductive Inquiry
  | resolve (request : LookupRequest)
  | documentSymbols (uri : String)
  | locations (query : LocationQuery) (request : LookupRequest)
  | hover (request : LookupRequest)
  | children (request : LookupRequest) (depth : Option ChildDepth)
  | hierarchy (kind : HierarchyKind) (request : LookupRequest)

/-- What a lookup gives. -/
inductive Finding
  | resolution (r : Resolution)
  | table (t : Table)
  | sides (t : HierarchyTables)

/-- The tables that a lookup gives. -/
def Finding.tables : Finding → List Table
  | .resolution _ => []
  | .table t => [t]
  | .sides t => [t.incoming, t.outgoing]

/-- The tables of an answer. A request that is malformed has none. -/
def tablesOf : Except MalformedInput Finding → List Table
  | .ok finding => finding.tables
  | .error _ => []

/-- Makes a lookup. -/
def Inquiry.answer {m : Type → Type} [Asking m] (c : Config) :
    Inquiry → m (Except MalformedInput Finding)
  | .resolve request => do
    let a ← Lookup.resolve c.timeouts.symbols request
    return a.map .resolution
  | .documentSymbols uri => do
    let a ← Lookup.documentSymbols c uri
    return a.map .table
  | .locations query request => do
    let a ← Lookup.locations c query request
    return a.map .table
  | .hover request => do
    let a ← Lookup.hover c request
    return a.map .table
  | .children request depth => do
    let a ← Lookup.children c request depth
    return a.map .table
  | .hierarchy kind request => do
    let a ← Lookup.hierarchy c kind request
    return a.map .sides

end Lookup

/-- **A correspondence holds of every lookup.** -/
theorem Correspondence.answer {m n : Type → Type} [Asking m] [Asking n] (r : Correspondence m n)
    (c : Config) (i : Lookup.Inquiry) : r.Rel (i.answer c) (i.answer c) := by
  cases i with
  | resolve request => exact r.bind (r.resolve _ request) fun _ => r.pure _
  | documentSymbols uri => exact r.bind (r.documentSymbols c uri) fun _ => r.pure _
  | locations query request => exact r.bind (r.locations c query request) fun _ => r.pure _
  | hover request => exact r.bind (r.hover c request) fun _ => r.pure _
  | children request depth => exact r.bind (r.children c request depth) fun _ => r.pure _
  | hierarchy kind request => exact r.bind (r.hierarchy c kind request) fun _ => r.pure _

end SymbolQuery
