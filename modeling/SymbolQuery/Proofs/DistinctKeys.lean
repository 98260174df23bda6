/-
Tables that were read have each key once.

While a document is read a key is put in the place of the one that was there, so each key of a
draft stands once, at every level of tables. Headers and dotted keys only change the table that
they lead to, and the ones on the way to it are put back under their own keys. What a draft
becomes in the end keeps its keys.
-/
import Mathlib.Data.List.Nodup
import SymbolQuery.Config.Store
import SymbolQuery.Toml.Parser

set_option autoImplicit false

namespace SymbolQuery.Toml

/-! ## Each key once -/

/-- Whether a value is a table. -/
def isTable : Toml → Bool
  | .table _ => true
  | _ => false

/-- The keys of a table. -/
def keys (entries : List (String × Toml)) : List String := entries.map Prod.fst

/-- A value of which each table, if it is one or has some inside, has each of its keys once. The
tables in arrays do not count, since these are replaced as a whole. -/
inductive KeysOnce : Toml → Prop
  | plain {v : Toml} (h : v.isTable = false) : KeysOnce v
  | table {entries : List (String × Toml)} (hkeys : (keys entries).Nodup)
      (hvalues : ∀ e ∈ entries, KeysOnce e.2) : KeysOnce (.table entries)

theorem KeysOnce.keys {entries : List (String × Toml)} (h : KeysOnce (.table entries)) :
    (keys entries).Nodup := by
  cases h with
  | plain h => cases h
  | table hkeys _ => exact hkeys

theorem KeysOnce.values {entries : List (String × Toml)} (h : KeysOnce (.table entries)) :
    ∀ e ∈ entries, KeysOnce e.2 := by
  cases h with
  | plain h => cases h
  | table _ hvalues => exact hvalues

theorem keysOnce_empty : KeysOnce (.table []) := .table List.nodup_nil (fun _ h => by cases h)

/-! ## Values without tables -/

/-- What a reader gives is of some kind. -/
def Reads {α : Type} (p : α → Prop) (reader : Reader α) : Prop :=
  ∀ s x rest, reader s = some (x, rest) → p x

theorem plain_of_fit64 {i : Int} {v : Toml} (h : fit64 i = some v) : v.isTable = false := by
  unfold fit64 at h
  split at h
  · cases h
    rfl
  · cases h

/-- A number with a point is no table, whether or not it can be represented. -/
theorem plain_of_realOf {negative : Bool} {significand : Nat} {exponent : Int} {v : Toml}
    (h : realOf negative significand exponent = some v) : v.isTable = false := by
  unfold realOf at h
  split at h
  · cases h
    rfl
  · split at h
    · cases h
      rfl
    · cases h

theorem plain_of_readBased (base : Nat) : Reads (·.isTable = false) (readBased base) := by
  intro s v rest h
  obtain ⟨_, -, hfit⟩ := Option.bind_eq_some_iff.mp h
  obtain ⟨w, hw, heq⟩ := Option.map_eq_some_iff.mp hfit
  cases heq
  exact plain_of_fit64 hw

theorem plain_of_readInteger : Reads (·.isTable = false) readInteger := by
  intro s v rest h
  unfold readInteger at h
  split at h
  · exact plain_of_readBased 16 _ _ _ h
  · exact plain_of_readBased 8 _ _ _ h
  · exact plain_of_readBased 2 _ _ _ h
  · obtain ⟨_, -, hfit⟩ := Option.bind_eq_some_iff.mp h
    obtain ⟨w, hw, heq⟩ := Option.map_eq_some_iff.mp hfit
    cases heq
    exact plain_of_fit64 hw

theorem plain_of_readRealRest (negative : Bool) (whole : List Char) :
    Reads (·.isTable = false) (readRealRest negative whole) := by
  intro s v rest h
  unfold readRealRest at h
  split at h
  · obtain ⟨_, -, h⟩ := Option.bind_eq_some_iff.mp h
    obtain ⟨_, -, h⟩ := Option.bind_eq_some_iff.mp h
    obtain ⟨w, hw, heq⟩ := Option.bind_eq_some_iff.mp h
    cases heq
    exact plain_of_realOf hw
  · obtain ⟨_, -, h⟩ := Option.bind_eq_some_iff.mp h
    obtain ⟨w, hw, heq⟩ := Option.bind_eq_some_iff.mp h
    cases heq
    exact plain_of_realOf hw

theorem plain_of_readNamedReal : Reads (·.isTable = false) readNamedReal := by
  intro s v rest h
  unfold readNamedReal at h
  dsimp only at h
  split at h
  · cases h
    rfl
  · cases h
    rfl
  · cases h

theorem plain_of_readNumber : Reads (·.isTable = false) readNumber := by
  intro s v rest h
  unfold readNumber at h
  split at h
  · next hnamed =>
    cases h
    exact plain_of_readNamedReal _ _ _ hnamed
  · split at h
    split at h
    · split at h
      · exact plain_of_readRealRest _ _ _ _ _ h
      · exact plain_of_readInteger _ _ _ h
    · cases h

theorem plain_of_readMoment : Reads (·.isTable = false) readMoment := by
  intro s v rest h
  unfold readMoment at h
  split at h
  all_goals
    obtain ⟨_, -, heq⟩ := Option.map_eq_some_iff.mp h
    cases heq
    rfl

/-- What is read without an opening bracket is no table. -/
theorem plain_of_readScalar : Reads (·.isTable = false) readScalar := by
  intro s v rest h
  unfold readScalar at h
  split at h
  · cases h
    rfl
  · cases h
    rfl
  · split at h
    · obtain ⟨_, -, heq⟩ := Option.map_eq_some_iff.mp h
      cases heq
      rfl
    · obtain ⟨_, -, heq⟩ := Option.map_eq_some_iff.mp h
      cases heq
      rfl
    · split at h
      · next hmoment =>
        cases h
        exact plain_of_readMoment _ _ _ hmoment
      · exact plain_of_readNumber _ _ _ h

/-! ## Drafts of tables -/

/-- A node whose tables, down to any level, have each of their keys once. -/
inductive Node.KeysOnce : Node → Prop
  | value {v : Toml} (h : v.KeysOnce) : KeysOnce (.value v)
  | table {origin : Origin} {nodes : Nodes} (hkeys : (nodes.map Prod.fst).Nodup)
      (hnodes : ∀ e ∈ nodes, KeysOnce e.2) : KeysOnce (.table origin nodes)
  | tables {items : List Nodes} : KeysOnce (.tables items)

/-- The entries of a table, each key once, of which the same holds. -/
structure NodesOnce (nodes : Nodes) : Prop where
  keys : (nodes.map Prod.fst).Nodup
  nodes : ∀ e ∈ nodes, e.2.KeysOnce

theorem NodesOnce.table {nodes : Nodes} (h : NodesOnce nodes) (origin : Origin) :
    (Node.table origin nodes).KeysOnce := .table h.keys h.nodes

theorem nodesOnce_nil : NodesOnce [] := ⟨List.nodup_nil, fun _ h => by cases h⟩

/-- What holds of a table holds of those inside it. -/
theorem NodesOnce.of_lookup {nodes inner : Nodes} {key : String} {origin : Origin}
    (h : NodesOnce nodes) (hlookup : nodes.lookup key = some (.table origin inner)) :
    NodesOnce inner := by
  obtain ⟨before, behind, rfl, -⟩ := List.lookup_eq_some_iff.mp hlookup
  have hnode := h.nodes _ (List.mem_append_right before List.mem_cons_self)
  cases hnode with
  | table hkeys hnodes => exact ⟨hkeys, hnodes⟩

/-- Putting a node under a key adds that entry, and no other. -/
theorem mem_put {key : String} {n : Node} {nodes : Nodes} {e : String × Node}
    (h : e ∈ Node.put key n nodes) : e = (key, n) ∨ e ∈ nodes := by
  induction nodes with
  | nil => exact .inl (List.mem_singleton.mp h)
  | cons f rest ih =>
    rw [Node.put] at h
    split at h
    · exact (List.mem_cons.mp h).imp_right (List.mem_cons_of_mem _)
    · rcases List.mem_cons.mp h with h | h
      · exact .inr (List.mem_cons.mpr (.inl h))
      · exact (ih h).imp_right (List.mem_cons_of_mem _)

/-- **A node is put under a key in the place of the one that is there.** -/
theorem NodesOnce.put {nodes : Nodes} (h : NodesOnce nodes) (key : String) {n : Node}
    (hn : n.KeysOnce) : NodesOnce (Node.put key n nodes) := by
  refine ⟨?_, ?_⟩
  · -- which keys there are does not depend on the nodes
    have hkeys := h.keys
    clear h hn
    induction nodes with
    | nil => exact List.nodup_singleton key
    | cons f rest ih =>
      obtain ⟨hf, hrest⟩ := List.nodup_cons.mp hkeys
      rw [Node.put]
      split
      · next hk => exact hk ▸ hkeys
      · next hk =>
        refine List.nodup_cons.mpr ⟨?_, ih hrest⟩
        intro hmem
        obtain ⟨e, he, hfst⟩ := List.mem_map.mp hmem
        obtain rfl | he := mem_put he
        · exact hk hfst.symm
        · exact hf (hfst ▸ List.mem_map_of_mem he)
  · intro e he
    obtain rfl | he := mem_put he
    · exact hn
    · exact h.nodes e he

/-- A way of changing the entries of a table keeps each key once. -/
def Keeps (f : Nodes → Option Nodes) : Prop :=
  ∀ nodes nodes', NodesOnce nodes → f nodes = some nodes' → NodesOnce nodes'

/-- A change below a path keeps the keys at every table on the way. -/
theorem keeps_within {f : Nodes → Option Nodes} (hf : Keeps f) (path : List String) :
    Keeps (Node.within f path) := by
  intro nodes nodes' hnodes h
  fun_induction Node.within f path nodes generalizing nodes' with
  | case1 nodes => exact hf _ _ hnodes h
  | case2 key path nodes _ ih =>
    obtain ⟨inner, hinner, rfl⟩ := Option.map_eq_some_iff.mp h
    exact hnodes.put key ((ih inner nodesOnce_nil hinner).table _)
  | case3 => cases h
  | case4 key path nodes origin inner hlookup ih =>
    -- the table on the way is put back under its own key
    obtain ⟨inner', hinner, rfl⟩ := Option.map_eq_some_iff.mp h
    exact hnodes.put key ((ih inner' (hnodes.of_lookup hlookup) hinner).table _)
  | case5 => cases h
  | case6 key path nodes last before _ ih =>
    obtain ⟨inner, -, rfl⟩ := Option.map_eq_some_iff.mp h
    exact hnodes.put key .tables

/-- A header opens a new table, or one that only stood on the way to others before. -/
theorem keeps_openTable (key : String) : Keeps (Node.openTable key) := by
  intro nodes nodes' hnodes h
  unfold Node.openTable at h
  split at h
  · cases h
    exact hnodes.put key (nodesOnce_nil.table _)
  · next hlookup =>
    cases h
    exact hnodes.put key ((hnodes.of_lookup hlookup).table _)
  · cases h

/-- A header in two brackets adds an item to an array, and those do not count. -/
theorem keeps_openItem (key : String) : Keeps (Node.openItem key) := by
  intro nodes nodes' hnodes h
  unfold Node.openItem at h
  split at h
  · cases h
    exact hnodes.put key .tables
  · cases h
    exact hnodes.put key .tables
  · cases h

/-- A value is assigned below a dotted key, whose tables may be new. -/
theorem keeps_assign {v : Toml} (hv : v.KeysOnce) (key : String) (path : List String)
    (origin : Origin) (below : Bool) : Keeps (Node.assign key v path origin below) := by
  intro nodes nodes' hnodes h
  fun_induction Node.assign key v path origin below nodes generalizing nodes' with
  | case1 =>
    cases h
    exact hnodes.put key (.value hv)
  | case2 => cases h
  | case3 k path _ _ nodes _ ih =>
    obtain ⟨inner, hinner, rfl⟩ := Option.map_eq_some_iff.mp h
    exact hnodes.put k ((ih inner nodesOnce_nil hinner).table _)
  | case4 => cases h
  | case5 => cases h
  | case6 k path _ _ nodes origin inner _ hlookup ih =>
    obtain ⟨inner', hinner, rfl⟩ := Option.map_eq_some_iff.mp h
    exact hnodes.put k ((ih inner' (hnodes.of_lookup hlookup) hinner).table _)
  | case7 => cases h
  | case8 k path _ _ nodes last before _ ih =>
    obtain ⟨inner, -, rfl⟩ := Option.map_eq_some_iff.mp h
    exact hnodes.put k .tables

theorem keeps_assignAt {v : Toml} (hv : v.KeysOnce) (path : List String) :
    Keeps (Node.assignAt path v) := by
  intro nodes nodes' hnodes h
  unfold Node.assignAt at h
  split at h
  · exact keeps_assign hv _ _ _ _ _ _ hnodes h
  · cases h

/-! ## What a draft becomes -/

theorem keys_entriesToToml (nodes : Nodes) :
    keys (Node.entriesToToml nodes) = nodes.map Prod.fst := by
  induction nodes with
  | nil => rfl
  | cons e rest ih =>
    rw [Node.entriesToToml, keys, List.map_cons, List.map_cons]
    exact congrArg _ ih

theorem forall_mem_entriesToToml {nodes : Nodes} (h : ∀ e ∈ nodes, (Node.toToml e.2).KeysOnce) :
    ∀ e ∈ Node.entriesToToml nodes, e.2.KeysOnce := by
  induction nodes with
  | nil => exact fun _ h => by cases h
  | cons e rest ih =>
    obtain ⟨he, hrest⟩ := List.forall_mem_cons.mp h
    rw [Node.entriesToToml]
    exact List.forall_mem_cons.mpr ⟨he, ih hrest⟩

/-- What a node becomes has the keys of the node. -/
theorem keysOnce_toToml {n : Node} (h : n.KeysOnce) : (Node.toToml n).KeysOnce := by
  induction h with
  | value h => exact h
  | @table origin nodes hkeys _ ih =>
    exact .table ((keys_entriesToToml nodes).symm ▸ hkeys) (forall_mem_entriesToToml ih)
  | tables => exact .plain rfl

theorem NodesOnce.entriesToToml {nodes : Nodes} (h : NodesOnce nodes) :
    KeysOnce (.table (Node.entriesToToml nodes)) :=
  keysOnce_toToml (h.table .header)

/-! ## Values -/

theorem reads_entry {value : Reader Toml} (h : Reads KeysOnce value) :
    Reads (fun e => KeysOnce e.2) (readEntry value) := by
  intro s e rest hread
  unfold readEntry at hread
  obtain ⟨⟨path, s'⟩, -, hread⟩ := Option.bind_eq_some_iff.mp hread
  dsimp only at hread
  split at hread
  · obtain ⟨⟨v, r⟩, hvalue, heq⟩ := Option.bind_eq_some_iff.mp hread
    cases heq
    exact h _ _ _ hvalue
  · cases hread

/-- A table in braces is a draft of its own, to which its entries are assigned one by one. -/
theorem reads_entries {value : Reader Toml} (h : Reads KeysOnce value) (fuel : Nat)
    {nodes : Nodes} (hnodes : NodesOnce nodes) :
    Reads NodesOnce (readEntries value fuel nodes) := by
  induction fuel generalizing nodes with
  | zero =>
    intro s _ _ hread
    cases hread
  | succ fuel ih =>
    intro s found rest hread
    rw [readEntries] at hread
    obtain ⟨⟨⟨path, v⟩, r⟩, hentry, hread⟩ := Option.bind_eq_some_iff.mp hread
    obtain ⟨nodes', hassign, hread⟩ := Option.bind_eq_some_iff.mp hread
    have hnodes' := keeps_assignAt (reads_entry h _ _ _ hentry) path _ _ hnodes hassign
    split at hread
    · exact ih hnodes' _ _ _ hread
    · cases hread
      exact hnodes'
    · cases hread

/-- **A value that was read has each key once**, by the depth to which it may be nested. -/
theorem reads_value (depth : Nat) : Reads KeysOnce (readValue depth) := by
  induction depth with
  | zero =>
    intro s v rest h
    exact .plain (plain_of_readScalar _ _ _ h)
  | succ depth ih =>
    intro s v rest h
    unfold readValue at h
    split at h
    · exact absurd ‹depth + 1 = 0› (Nat.succ_ne_zero depth)
    · obtain ⟨_, -, heq⟩ := Option.map_eq_some_iff.mp h
      cases heq
      exact .plain rfl
    · split at h
      · cases h
        exact keysOnce_empty
      · obtain ⟨⟨nodes, r⟩, hentries, heq⟩ := Option.map_eq_some_iff.mp h
        cases heq
        cases ‹depth + 1 = _›
        exact (reads_entries ih _ nodesOnce_nil _ _ _ hentries).entriesToToml
    · exact .plain (plain_of_readScalar _ _ _ h)

/-! ## Documents -/

/-- A header changes the root of a draft, and where the next lines go. -/
theorem openAt_keeps {d d' : Draft} {path : List String} {how : String → Nodes → Option Nodes}
    (hhow : ∀ key, Keeps (how key)) (hd : NodesOnce d.root) (h : d.openAt path how = some d') :
    NodesOnce d'.root := by
  unfold Draft.openAt at h
  split at h
  · obtain ⟨root, hroot, rfl⟩ := Option.map_eq_some_iff.mp h
    exact keeps_within (hhow _) _ _ _ hd hroot
  · cases h

theorem readHeader_keeps {d d' : Draft} {isItem : Bool} {s rest : List Char}
    (hd : NodesOnce d.root) (h : d.readHeader isItem s = some (d', rest)) :
    NodesOnce d'.root := by
  unfold Draft.readHeader at h
  obtain ⟨⟨path, s'⟩, -, h⟩ := Option.bind_eq_some_iff.mp h
  dsimp only at h
  split at h
  · obtain ⟨opened, hopen, h⟩ := Option.bind_eq_some_iff.mp h
    obtain ⟨_, -, heq⟩ := Option.bind_eq_some_iff.mp h
    cases heq
    exact openAt_keeps keeps_openItem hd hopen
  · obtain ⟨opened, hopen, h⟩ := Option.bind_eq_some_iff.mp h
    obtain ⟨_, -, heq⟩ := Option.bind_eq_some_iff.mp h
    cases heq
    exact openAt_keeps keeps_openTable hd hopen
  · cases h

/-- A line assigns its value below the table of the last header. -/
theorem readLine_keeps {d d' : Draft} {s rest : List Char} (hd : NodesOnce d.root)
    (h : d.readLine s = some (d', rest)) : NodesOnce d'.root := by
  unfold Draft.readLine at h
  obtain ⟨⟨⟨path, v⟩, s'⟩, hentry, h⟩ := Option.bind_eq_some_iff.mp h
  obtain ⟨_, -, h⟩ := Option.bind_eq_some_iff.mp h
  obtain ⟨root, hroot, heq⟩ := Option.bind_eq_some_iff.mp h
  cases heq
  have hv : v.KeysOnce := reads_entry (reads_value maxDepth) _ _ _ hentry
  exact keeps_within (keeps_assignAt hv path) _ _ _ hd hroot

/-- **Every line of a document keeps each key once.** -/
theorem readLines_keeps {fuel : Nat} {d d' : Draft} {s : List Char} (hd : NodesOnce d.root)
    (h : Draft.readLines fuel d s = some d') : NodesOnce d'.root := by
  induction fuel generalizing d s with
  | zero => cases h
  | succ fuel ih =>
    unfold Draft.readLines at h
    split at h
    · cases h
      exact hd
    · obtain ⟨_, -, h⟩ := Option.bind_eq_some_iff.mp h
      exact ih hd h
    · exact ih hd h
    · exact ih hd h
    · obtain ⟨_, hheader, h⟩ := Option.bind_eq_some_iff.mp h
      exact ih (readHeader_keeps hd hheader) h
    · obtain ⟨_, hheader, h⟩ := Option.bind_eq_some_iff.mp h
      exact ih (readHeader_keeps hd hheader) h
    · obtain ⟨_, hline, h⟩ := Option.bind_eq_some_iff.mp h
      exact ih (readLine_keeps hd hline) h

/-- **Each key of a document stands once**, at every level of its tables. -/
theorem keysOnce_of_parse {text : String} {entries : List (String × Toml)}
    (h : parse text = some entries) : KeysOnce (.table entries) := by
  obtain ⟨d, hread, rfl⟩ := Option.map_eq_some_iff.mp h
  exact (readLines_keeps nodesOnce_nil hread).entriesToToml

end SymbolQuery.Toml

namespace SymbolQuery.ConfigStore

/-- So does each key of a settings file, and a file that is not there has none. -/
theorem keysOnce_table {s : ConfigStore} {ofUser : Bool} {entries : List (String × Toml)}
    (h : s.table ofUser = .ok entries) : Toml.KeysOnce (.table entries) := by
  unfold table at h
  split at h
  · split at h
    · cases h
    · split at h
      · next hparse =>
        cases h
        exact Toml.keysOnce_of_parse hparse
      · cases h
  · cases h
    exact Toml.keysOnce_empty

end SymbolQuery.ConfigStore
