/-
The questions that a lookup puts to a provider, and what it asks of whatever runs it.

A question is a value, and `Reply` tells the type of its answer. A lookup is written
over any monad that can ask under a deadline, do two things at once, do many things
of which only a few run at a time, and note a warning. So one text of a lookup runs
on a simulated clock as well as against servers.
-/
import SymbolQuery.Fault
import SymbolQuery.Hierarchy
import SymbolQuery.Location
import SymbolQuery.Resolution
import SymbolQuery.Symbol.Basic

set_option autoImplicit false

namespace SymbolQuery

/-! ## Questions -/

/-- A question for the places that belong to a position. -/
inductive LocationQuery
  | references
  | definition
  | declaration
  | typeDefinition
  | implementation
  deriving DecidableEq, Repr, Inhabited

namespace LocationQuery

/-- All of them. -/
def all : List LocationQuery :=
  [.references, .definition, .declaration, .typeDefinition, .implementation]

/-- The name of a query in messages. -/
def label : LocationQuery → String
  | .references => "references"
  | .definition => "definition"
  | .declaration => "declaration"
  | .typeDefinition => "type definition"
  | .implementation => "implementation"

/-- The method that a server is asked with. -/
def method : LocationQuery → String
  | .references => "textDocument/references"
  | .definition => "textDocument/definition"
  | .declaration => "textDocument/declaration"
  | .typeDefinition => "textDocument/typeDefinition"
  | .implementation => "textDocument/implementation"

end LocationQuery

/-- The two directions of a hierarchy. -/
inductive Direction
  | incoming
  | outgoing
  deriving DecidableEq, Repr, Inhabited

/-- A question to a provider. -/
inductive Question
  | symbols (uri : String)
  | document (uri : String)
  | locations (query : LocationQuery) (uri : String) (p : Position)
  | hover (uri : String) (p : Position)
  | prepare (kind : HierarchyKind) (uri : String) (p : Position)
  | neighbours (kind : HierarchyKind) (direction : Direction) (item : HierarchyItem)
  deriving Repr, Inhabited

namespace Question

/-- The type of the answer to a question. -/
@[reducible] def Reply : Question → Type
  | .symbols _ => List Symbol
  | .document _ => String
  | .locations _ _ _ => List Location
  | .hover _ _ => Option HoverInfo
  | .prepare _ _ _ => List HierarchyItem
  | .neighbours _ _ _ => List Edge

/-- What is asked, without about what. -/
def subject : Question → String
  | .symbols _ => "document_symbols"
  | .document _ => "read_document"
  | .locations query _ _ => query.label
  | .hover _ _ => "hover"
  | .prepare .call _ _ => "prepare_call"
  | .prepare .type _ _ => "prepare_type"
  | .neighbours .call .incoming _ => "incoming"
  | .neighbours .call .outgoing _ => "outgoing"
  | .neighbours .type .incoming _ => "supertypes"
  | .neighbours .type .outgoing _ => "subtypes"

/-- What a question is about. -/
def object : Question → String
  | .symbols uri => uri
  | .document uri => uri
  | .locations _ _ p => p.text
  | .hover _ p => p.text
  | .prepare _ _ p => p.text
  | .neighbours _ _ item => item.name

/-- The line that stands for a question in a log. -/
def line (q : Question) : String := q.subject ++ " " ++ q.object

end Question

/-! ## Answers and warnings -/

/-- How a guard ends a call before its answer. -/
inductive Interruption
  | timedOut (after : Nat)
  | cancelled
  deriving DecidableEq, Repr

/-- The wording of an interruption. -/
def Interruption.message : Interruption → String
  | .timedOut after => s!"timed out after {after}ms"
  | .cancelled => "cancelled"

/-- What comes of a guarded question. -/
abbrev Answer (β : Type) := Except Interruption (Except ServiceFault β)

/-- The reply in an answer, or why the named operation has none. -/
def Answer.reply {β : Type} (operation : String) : Answer β → Except CallFault β
  | .ok (.ok b) => .ok b
  | .ok (.error source) => .error (.failed operation source)
  | .error (.timedOut after) => .error (.timedOut operation after)
  | .error .cancelled => .error (.cancelled operation)

/-- What a lookup notes where it goes on with less than was asked for. -/
inductive Warning
  | notFound (error : String)
  | ambiguous (name : String) (count : Nat)
  | call (fault : CallFault)
  deriving DecidableEq, Repr

/-- The wording of a warning. -/
def Warning.message : Warning → String
  | .notFound error => error
  | .ambiguous name count => s!"'{name}' matched {count} symbols, using the first"
  | .call fault => fault.message

/-! ## Running lookups -/

/-- What a lookup needs of the monad that runs it. -/
class Asking (m : Type → Type) extends Monad m where
  /-- Asks under a deadline in milliseconds. -/
  ask : Nat → (q : Question) → m (Answer q.Reply)
  /-- Does two things at once. -/
  both : {α β : Type} → m α → m β → m (α × β)
  /-- Does many things, of which only the given number run at a time; one more starts whenever the
  first result that is still out has been taken. -/
  window : {α : Type} → Nat → List (m α) → m (List α)
  /-- Notes a warning. -/
  warn : Warning → m Unit

end SymbolQuery
