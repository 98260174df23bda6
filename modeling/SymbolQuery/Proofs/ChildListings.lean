/-
The symbols below a symbol, and the walk through them.

A listing goes down from one symbol as the walk does, but it counts the levels, knows the
symbol around each one by its name only, and turns back where its depth does not allow
more. Addresses bring both together, also where names and whole symbols are equal: the
depth of an entry is the length of its address, and its parent stands at the address
without the last step. An address that leads further down is longer, so what is pruned
with a symbol is too deep as well, and pruning on the way down is leaving out afterwards.
-/
import SymbolQuery.Proofs.SymbolAddresses
import SymbolQuery.Symbol.Children

set_option autoImplicit false

namespace SymbolQuery.Symbol

/-! ## What stands around an address -/

/-- The symbol directly around the one at an address below `s`. -/
def around (s : Symbol) : List Nat → Option Symbol
  | [] => none
  | i :: rest => s.follow (i :: rest).dropLast

theorem around_concat (s : Symbol) (a : List Nat) (i : Nat) : s.around (a ++ [i]) = s.follow a := by
  have hcons : ∀ b : List Nat, b ≠ [] → s.around b = s.follow b.dropLast := by
    intro b hb
    obtain ⟨j, rest, rfl⟩ := List.exists_cons_of_ne_nil hb
    rfl
  rw [hcons _ (List.append_ne_nil_of_right_ne_nil a (List.cons_ne_nil i [])),
    List.dropLast_concat]

/-- Around an address that leads through a child stands the child, or what stands there for it. -/
theorem around_cons {s c : Symbol} {i : Nat} (hc : s.children[i]? = some c) (a : List Nat) :
    s.around (i :: a) = if a = [] then some s else c.around a := by
  cases a with
  | nil => rfl
  | cons j rest =>
    change s.follow (i :: (j :: rest).dropLast) = c.follow (j :: rest).dropLast
    rw [follow, hc]
    rfl

/-- Something stands around every symbol below `s`. -/
theorem exists_around {s t : Symbol} {a : List Nat} (ha : a ≠ []) (h : s.follow a = some t) :
    ∃ p, s.around a = some p := by
  induction a generalizing s with
  | nil => exact absurd rfl ha
  | cons i rest ih =>
    obtain ⟨c, hc, hrest⟩ := Option.bind_eq_some_iff.mp h
    rw [around_cons hc]
    split
    · exact ⟨s, rfl⟩
    · next hne => exact ih hne hrest

/-! ## The walk by addresses -/

theorem getElem?_children {s c : Symbol} {before rest : List Symbol}
    (h : s.children = before ++ c :: rest) : s.children[before.length]? = some c := by
  rw [h, List.getElem?_append_right (Nat.le_refl _), Nat.sub_self]
  rfl

mutual

theorem walkTree_eq_map (parent : Option Symbol) (s : Symbol) :
    walkTree parent s
      = (listedTree s).map fun e => (e.2, if e.1 = [] then parent else s.around e.1) := by
  match s with
  | ⟨name, kind, range, selectionRange, detail, children⟩ =>
    rw [walkTree, listedTree, List.map_cons]
    dsimp only
    rw [walkForest_eq_map ⟨name, kind, range, selectionRange, detail, children⟩ [] children rfl]
    refine congrArg _ (List.map_congr_left ?_)
    rintro ⟨a, t⟩ hmem
    -- what is inside the symbol has an address that is not empty
    obtain ⟨j, rest, rfl, -⟩ := (mem_listedFrom 0 a t children).mp hmem
    cases rest with
    | nil => rfl
    | cons _ _ => rfl

/-- The trees among the children of `s` that stand behind those `before`. -/
theorem walkForest_eq_map {parent : Option Symbol} (s : Symbol) (before forest : List Symbol)
    (h : s.children = before ++ forest) :
    walkForest parent forest = (listedFrom before.length forest).map fun e =>
      (e.2, if e.1.tail = [] then parent else s.around e.1) := by
  match forest with
  | [] => rfl
  | c :: rest =>
    have hrest : s.children = (before ++ [c]) ++ rest := by rw [h, List.append_assoc]; rfl
    rw [walkForest, listedFrom, List.map_append, List.map_map, walkTree_eq_map parent c,
      walkForest_eq_map s (before ++ [c]) rest hrest, List.length_append]
    refine congrArg (· ++ _) (List.map_congr_left ?_)
    rintro ⟨a, t⟩ -
    -- at the child itself its own tree takes the parent, and further down both are around the same
    simp only [Function.comp_apply, List.tail_cons, around_cons (getElem?_children h)]
    split <;> rfl

end

/-- **The walk by addresses**: every symbol below `s` comes with the one around it, unless that is
`s` itself. -/
theorem walk_children (s : Symbol) :
    walk s.children = (listed s.children).map fun e =>
      (e.2, if e.1.tail = [] then none else s.around e.1) :=
  walkForest_eq_map s [] s.children rfl

/-! ## Listings by addresses -/

/-- The name of the symbol directly around the one at an address below `s`. -/
def nameAround (s : Symbol) (a : List Nat) : String := (s.around a).elim s.name Symbol.name

theorem nameAround_cons {s c t : Symbol} {i : Nat} (hc : s.children[i]? = some c) {a : List Nat}
    (ht : c.follow a = some t) :
    s.nameAround (i :: a) = if a = [] then s.name else c.nameAround a := by
  unfold nameAround
  rw [around_cons hc]
  split
  · rfl
  · next hne =>
    obtain ⟨p, hp⟩ := exists_around hne ht
    rw [hp]
    rfl

mutual

theorem descendTree_all (level : Nat) (parent : String) (s : Symbol) :
    descendTree .all level parent s = (listedTree s).map fun e =>
      ⟨e.2, level + e.1.length, if e.1 = [] then parent else s.nameAround e.1⟩ := by
  match s with
  | ⟨name, kind, range, selectionRange, detail, children⟩ =>
    rw [descendTree, listedTree, List.map_cons]
    refine congrArg _ ?_
    refine (descendForest_all level ⟨name, kind, range, selectionRange, detail, children⟩ []
      children rfl).trans (List.map_congr_left ?_)
    rintro ⟨a, t⟩ hmem
    -- an address below the symbol is not empty, so the name around it is not `parent`
    obtain ⟨j, rest, rfl, -⟩ := (mem_listedFrom 0 a t children).mp hmem
    rfl

/-- The trees among the children of `s` that stand behind those `before`. -/
theorem descendForest_all (level : Nat) (s : Symbol) (before forest : List Symbol)
    (h : s.children = before ++ forest) :
    descendForest .all (level + 1) s.name forest = (listedFrom before.length forest).map fun e =>
      ⟨e.2, level + e.1.length, s.nameAround e.1⟩ := by
  match forest with
  | [] => rfl
  | c :: rest =>
    have hrest : s.children = (before ++ [c]) ++ rest := by rw [h, List.append_assoc]; rfl
    rw [descendForest, listedFrom, List.map_append, List.map_map, descendTree_all _ _ c,
      descendForest_all level s (before ++ [c]) rest hrest, List.length_append]
    refine congrArg (· ++ _) (List.map_congr_left ?_)
    rintro ⟨a, t⟩ hmem
    have hname := nameAround_cons (getElem?_children h) ((mem_listedTree a t c).mp hmem)
    simp only [Function.comp_apply, hname, List.length_cons]
    rw [Nat.add_assoc, Nat.add_comm 1]

end

/-- The entry for the symbol that is listed with an address below `s`. -/
def entryAt (s : Symbol) (e : List Nat × Symbol) : NestedSymbol :=
  ⟨e.2, e.1.length, s.nameAround e.1⟩

/-- **A listing of all levels by addresses.** -/
theorem descendants_all (s : Symbol) :
    descendants s .all = (listed s.children).map s.entryAt := by
  have hentries := descendForest_all 0 s [] s.children rfl
  simp only [Nat.zero_add] at hentries
  exact hentries

/-! ## Pruning -/

/-- What is below a symbol is deeper than it. -/
theorem lt_depth_of_mem_descendForest {level : Nat} {s : Symbol} {n : NestedSymbol}
    (h : n ∈ descendForest .all (level + 1) s.name s.children) : level < n.depth := by
  rw [descendForest_all level s [] s.children rfl] at h
  obtain ⟨⟨a, t⟩, hmem, rfl⟩ := List.mem_map.mp h
  obtain ⟨j, rest, rfl, -⟩ := (mem_listedFrom 0 a t s.children).mp hmem
  exact Nat.lt_add_of_pos_right (Nat.succ_pos _)

/-- Below a symbol at a limit nothing is kept. -/
theorem filter_descendForest_eq_nil {limit level : Nat} (h : limit ≤ level) (s : Symbol) :
    (descendForest .all (level + 1) s.name s.children).filter (fun n => n.depth ≤ limit) = [] := by
  refine List.filter_eq_nil_iff.mpr ?_
  intro n hn
  have hdeep := lt_depth_of_mem_descendForest hn
  rw [decide_eq_true_eq]
  omega

mutual

theorem descendTree_limited {limit level : Nat} (hlevel : level ≤ limit) (parent : String)
    (s : Symbol) :
    descendTree (.limited limit) level parent s
      = (descendTree .all level parent s).filter fun n => n.depth ≤ limit := by
  match s with
  | ⟨name, kind, range, selectionRange, detail, children⟩ =>
    rw [descendTree, descendTree, List.filter_cons, if_pos (decide_eq_true hlevel)]
    refine congrArg _ ?_
    change (if decide (level + 1 ≤ limit) then _ else _) = _
    split
    · next hnext => exact descendForest_limited (of_decide_eq_true hnext) name children
    · next hnext =>
      rw [decide_eq_true_eq] at hnext
      exact (filter_descendForest_eq_nil (Nat.not_lt.mp hnext)
        ⟨name, kind, range, selectionRange, detail, children⟩).symm

theorem descendForest_limited {limit level : Nat} (hlevel : level ≤ limit) (parent : String)
    (forest : List Symbol) :
    descendForest (.limited limit) level parent forest
      = (descendForest .all level parent forest).filter fun n => n.depth ≤ limit := by
  match forest with
  | [] => rfl
  | s :: rest =>
    rw [descendForest, descendForest, List.filter_append, descendTree_limited hlevel parent s,
      descendForest_limited hlevel parent rest]

end

/-- **Pruning is leaving out**: a limited listing is the one of all levels without what is deeper
than the limit. -/
theorem descendants_limited (s : Symbol) (limit : Nat) :
    descendants s (.limited limit)
      = (descendants s .all).filter fun n => n.depth ≤ limit := by
  change (if decide (1 ≤ limit) then _ else _) = _
  split
  · next hlimit => exact descendForest_limited (of_decide_eq_true hlimit) s.name s.children
  · next hlimit =>
    rw [decide_eq_true_eq] at hlimit
    exact (filter_descendForest_eq_nil (Nat.not_lt.mp hlimit) s).symm

/-! ## Listings and the walk -/

/-- Entries of a listing below `s` with the addresses of their symbols: each one tells how deep it
stands and in which symbol, as seen from `s`. -/
structure Placed (s : Symbol) (entries : List (List Nat × NestedSymbol)) : Prop where
  symbol : ∀ a n, (a, n) ∈ entries → atAddress? s.children a = some n.symbol
  child : ∀ i n, ([i], n) ∈ entries → n.depth = 1 ∧ n.parent = s.name
  deeper : ∀ a m i n, (a, m) ∈ entries → (a ++ [i], n) ∈ entries →
    n.depth = m.depth + 1 ∧ n.parent = m.symbol.name

theorem placed_entries (s : Symbol) :
    s.Placed ((listed s.children).map fun e => (e.1, s.entryAt e)) := by
  have hentry : ∀ a n, (a, n) ∈ (listed s.children).map (fun e => (e.1, s.entryAt e)) →
      atAddress? s.children a = some n.symbol ∧ n.depth = a.length ∧ n.parent = s.nameAround a := by
    intro a n hmem
    obtain ⟨⟨a', t⟩, hlisted, heq⟩ := List.mem_map.mp hmem
    obtain ⟨rfl, rfl⟩ := Prod.mk.inj heq
    exact ⟨mem_listed_iff.mp hlisted, rfl, rfl⟩
  refine ⟨fun a n hmem => (hentry a n hmem).1, fun i n hmem => (hentry [i] n hmem).2, ?_⟩
  intro a m i n hm hn
  obtain ⟨hat, hm, -⟩ := hentry a m hm
  obtain ⟨-, hn, hparent⟩ := hentry (a ++ [i]) n hn
  have hfollow : s.follow a = some m.symbol := by
    cases a with
    | nil => cases hat
    | cons j rest => exact hat
  refine ⟨by rw [hn, hm, List.length_append]; rfl, ?_⟩
  rw [hparent, nameAround, around_concat, hfollow]
  rfl

/-- **Listings and the walk agree.** A listing of all levels has the symbols of the walk in their
order, with the name of the symbol that the walk reports around each, or of `s` where it reports
none. Its entries are those for all addresses below `s`, in their order: a child of `s` has
depth 1, and what is directly inside another symbol has one more than that. A limited listing
is this one without what is deeper than the limit. -/
theorem descendants_agree_walk (s : Symbol) :
    (descendants s .all).map (fun n => (n.symbol, n.parent))
        = (walk s.children).map (fun e => (e.1, e.2.elim s.name Symbol.name))
      ∧ (∃ addresses, Enumerates s.children (fun _ => True) addresses
        ∧ addresses.length = (descendants s .all).length
        ∧ s.Placed (addresses.zip (descendants s .all)))
      ∧ ∀ limit, descendants s (.limited limit)
        = (descendants s .all).filter fun n => n.depth ≤ limit := by
  refine ⟨?_, ?_, descendants_limited s⟩
  · rw [descendants_all, walk_children, List.map_map, List.map_map]
    refine List.map_congr_left ?_
    rintro ⟨a, t⟩ -
    -- around a child of `s` the walk reports nothing, and the name is that of `s`
    obtain _ | ⟨i, _ | ⟨j, rest⟩⟩ := a <;> rfl
  · refine ⟨(listed s.children).map Prod.fst, ⟨?_, ?_⟩, ?_, ?_⟩
    · exact List.pairwise_map.mpr (pairwise_listed s.children)
    · intro a
      simp only [List.mem_map, Prod.exists, exists_and_right, exists_eq_right, mem_listed_iff,
        and_true]
    · rw [descendants_all, List.length_map, List.length_map]
    · rw [descendants_all, List.zip_map']
      exact placed_entries s

/-- Three symbols of one name in a fourth one, two of them inside each other: each comes with its
own depth. -/
example :
    let inner : Symbol := ⟨"x", .variable, default, default, none, []⟩
    let outer : Symbol := { inner with children := [inner] }
    let s : Symbol := ⟨"s", .function, default, default, none, [outer, inner]⟩
    (s.descendants .all).map (fun n => (n.symbol.name, n.depth, n.parent))
        = [("x", 1, "s"), ("x", 2, "x"), ("x", 1, "s")]
      ∧ (s.descendants (.limited 1)).map (fun n => (n.symbol.name, n.depth, n.parent))
        = [("x", 1, "s"), ("x", 1, "s")] := by
  decide

end SymbolQuery.Symbol
