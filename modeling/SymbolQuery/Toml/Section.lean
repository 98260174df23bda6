/-
Tables of a TOML document while it is read.

A table comes into being by a header of its own, on the way to another header, or by a
key with dots. A header may complete a table that was only on the way to others, but
none may open a table twice; a dotted key may only go on where dotted keys began. A
value is final: nothing can be added to it.
-/
import SymbolQuery.Toml.Basic

set_option autoImplicit false

namespace SymbolQuery.Toml

/-- How a table came into being. -/
inductive Origin
  /-- By its own header. -/
  | header
  /-- On the way to another header. -/
  | implied
  /-- By a key with dots. -/
  | dotted
  deriving DecidableEq, Repr, Inhabited

/-- What stands under a key of a document. -/
inductive Node
  | value (v : Toml)
  | table (origin : Origin) (entries : List (String × Node))
  /-- Tables in an array, the last one first. -/
  | tables (items : List (List (String × Node)))
  deriving Repr, Inhabited

/-- The entries of a table of a document. -/
abbrev Nodes := List (String × Node)

namespace Node

/-- Puts a node under a key, in place of the one that is there. -/
def put (key : String) (n : Node) : Nodes → Nodes
  | [] => [(key, n)]
  | (k, m) :: rest => if k = key then (key, n) :: rest else (k, m) :: put key n rest

/-! ## Headers -/

/-- Changes the table that a header leads to. Tables on the way come into being, and an array of
tables leads to its last one. -/
def within (f : Nodes → Option Nodes) : List String → Nodes → Option Nodes
  | [], nodes => f nodes
  | key :: path, nodes =>
    match nodes.lookup key with
    | none => (within f path []).map fun inner => put key (.table .implied inner) nodes
    | some (.value _) => none
    | some (.table origin inner) =>
      (within f path inner).map fun inner => put key (.table origin inner) nodes
    | some (.tables []) => none
    | some (.tables (last :: before)) =>
      (within f path last).map fun inner => put key (.tables (inner :: before)) nodes

/-- Opens a table by its header. -/
def openTable (key : String) (nodes : Nodes) : Option Nodes :=
  match nodes.lookup key with
  | none => some (put key (.table .header []) nodes)
  | some (.table .implied inner) => some (put key (.table .header inner) nodes)
  | some _ => none

/-- Opens a further table in an array of tables. -/
def openItem (key : String) (nodes : Nodes) : Option Nodes :=
  match nodes.lookup key with
  | none => some (put key (.tables [[]]) nodes)
  | some (.tables items) => some (put key (.tables ([] :: items)) nodes)
  | some _ => none

/-! ## Entries -/

/-- Puts a value under a key with dots into a table that came into being as `origin` says; `below`
tells that dots have led here. A dotted key ends in a table of dotted keys, any other in one with a
header. -/
def assign (key : String) (v : Toml) : List String → Origin → Bool → Nodes → Option Nodes
  | [], origin, below, nodes =>
    if (origin == .dotted) == below && (nodes.lookup key).isNone then
      some (put key (.value v) nodes)
    else none
  | k :: path, _, _, nodes =>
    match nodes.lookup k with
    | none =>
      (assign key v path .dotted true []).map fun inner => put k (.table .dotted inner) nodes
    | some (.value _) => none
    | some (.table .header _) => none
    | some (.table origin inner) =>
      (assign key v path origin true inner).map fun inner => put k (.table origin inner) nodes
    | some (.tables []) => none
    | some (.tables (last :: before)) =>
      (assign key v path .header true last).map fun inner => put k (.tables (inner :: before)) nodes

/-- Puts a value under a key, given by its parts, into a table with a header. -/
def assignAt (path : List String) (v : Toml) (nodes : Nodes) : Option Nodes :=
  match path.getLast? with
  | some key => assign key v path.dropLast .header false nodes
  | none => none

/-! ## Values -/

mutual

/-- The value that a node has become. -/
def toToml : Node → Toml
  | .value v => v
  | .table _ entries => .table (entriesToToml entries)
  | .tables items => .arr (itemsToToml [] items)

/-- The entries of a table as values. -/
def entriesToToml : List (String × Node) → List (String × Toml)
  | [] => []
  | (k, n) :: rest => (k, toToml n) :: entriesToToml rest

/-- The tables of an array as values, put in front of `done`; this turns their order round. -/
def itemsToToml (done : List Toml) : List (List (String × Node)) → List Toml
  | [] => done
  | entries :: rest => itemsToToml (.table (entriesToToml entries) :: done) rest

end

end Node

end SymbolQuery.Toml
