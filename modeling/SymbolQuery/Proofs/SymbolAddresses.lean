/-
Where the symbols of a forest stand.

The address of a symbol tells the way to it: the place of its tree in the forest, then the
place of a symbol among those inside the last one, and so on. It tells symbols apart that
are equal, which a list of symbols does not.

Read as words, addresses stand in the order of the walk: a symbol before those inside it,
and these before whatever comes after it. `listed` is a forest as the list of its addresses,
each with the symbol that stands there. The list is in order, every address of the forest is
in it, and what it lists is the walk. So a search through the walk finds what has the first
address, and nothing of a forest is left out of it or found twice.
-/
import Mathlib.Data.List.Lex
import SymbolQuery.Symbol.Locate

set_option autoImplicit false

namespace SymbolQuery.Symbol

/-! ## Addresses -/

/-- The symbol that is reached from `s` along an address. -/
def follow (s : Symbol) : List Nat → Option Symbol
  | [] => some s
  | i :: rest => s.children[i]?.bind fun c => follow c rest

/-- The symbol at an address of a forest. None has the empty address. -/
def atAddress? (forest : List Symbol) : List Nat → Option Symbol
  | [] => none
  | i :: rest => forest[i]?.bind fun s => s.follow rest

/-- The first address is that of a symbol around the second one, or it takes the earlier way where
they part. -/
def Precedes (a b : List Nat) : Prop := List.Lex (· < ·) a b

theorem Precedes.not_precedes {a b : List Nat} (h : Precedes a b) : ¬ Precedes b a :=
  fun h' => asymm_of (List.Lex (· < ·)) h h'

/-- Of the symbols with a property, this one has the first address. -/
def First (forest : List Symbol) (q : Symbol → Bool) (s : Symbol) : Prop :=
  ∃ a, atAddress? forest a = some s ∧ q s = true
    ∧ ∀ b t, atAddress? forest b = some t → q t = true → b ≠ a → Precedes a b

/-- The addresses of all symbols with a property, each once and in their order. -/
structure Enumerates (forest : List Symbol) (q : Symbol → Prop) (addresses : List (List Nat)) :
    Prop where
  ordered : addresses.Pairwise Precedes
  mem_iff : ∀ a, a ∈ addresses ↔ ∃ s, atAddress? forest a = some s ∧ q s

/-! ## A forest as the list of its addresses -/

mutual

/-- The symbols of a tree with their addresses as seen from its root. -/
def listedTree : Symbol → List (List Nat × Symbol)
  | ⟨name, kind, range, selectionRange, detail, children⟩ =>
    ([], ⟨name, kind, range, selectionRange, detail, children⟩) :: listedFrom 0 children

/-- The symbols of a forest with their addresses, the places of its trees counted from `i`. -/
def listedFrom (i : Nat) : List Symbol → List (List Nat × Symbol)
  | [] => []
  | s :: rest =>
    (listedTree s).map (fun e => (i :: e.1, e.2)) ++ listedFrom (i + 1) rest

end

/-- The symbols of a forest with their addresses. -/
def listed (forest : List Symbol) : List (List Nat × Symbol) := listedFrom 0 forest

/-! ## The list is the walk -/

mutual

theorem map_listedTree (parent : Option Symbol) (s : Symbol) :
    (listedTree s).map Prod.snd = (walkTree parent s).map Prod.fst := by
  match s with
  | ⟨name, kind, range, selectionRange, detail, children⟩ =>
    rw [listedTree, walkTree, List.map_cons, List.map_cons, map_listedFrom]

theorem map_listedFrom (i : Nat) (parent : Option Symbol) (forest : List Symbol) :
    (listedFrom i forest).map Prod.snd = (walkForest parent forest).map Prod.fst := by
  match forest with
  | [] => rfl
  | s :: rest =>
    rw [listedFrom, walkForest, List.map_append, List.map_append, List.map_map,
      ← map_listedTree parent s, ← map_listedFrom (i + 1) parent rest]
    rfl

end

/-- **What is listed is the walk.** -/
theorem map_listed (forest : List Symbol) : (listed forest).map Prod.snd = flatten forest :=
  map_listedFrom 0 none forest

/-! ## The list is complete -/

mutual

theorem mem_listedTree (a : List Nat) (t s : Symbol) :
    (a, t) ∈ listedTree s ↔ s.follow a = some t := by
  match s with
  | ⟨name, kind, range, selectionRange, detail, children⟩ =>
    rw [listedTree, List.mem_cons, mem_listedFrom]
    cases a with
    | nil => simp [follow, eq_comm]
    | cons i rest => simp [follow, atAddress?]

theorem mem_listedFrom (i : Nat) (a : List Nat) (t : Symbol) (forest : List Symbol) :
    (a, t) ∈ listedFrom i forest
      ↔ ∃ j rest, a = (i + j) :: rest ∧ atAddress? forest (j :: rest) = some t := by
  match forest with
  | [] => simp [listedFrom, atAddress?]
  | s :: trees =>
    rw [listedFrom, List.mem_append, List.mem_map, mem_listedFrom]
    constructor
    · rintro (⟨⟨a', t'⟩, hmem, heq⟩ | ⟨j, rest, rfl, hat⟩)
      · -- in the first tree, whose place is `i`
        obtain ⟨rfl, rfl⟩ := Prod.mk.inj heq
        exact ⟨0, a', rfl, (mem_listedTree a' t' s).mp hmem⟩
      · -- in a later tree, whose place among the later ones is one less
        exact ⟨j + 1, rest, by rw [Nat.add_right_comm, Nat.add_assoc], hat⟩
    · rintro ⟨j, rest, rfl, hat⟩
      by_cases hj : j = 0
      · subst hj
        exact .inl ⟨(rest, t), (mem_listedTree rest t s).mpr hat, rfl⟩
      · obtain ⟨k, rfl⟩ := Nat.exists_eq_succ_of_ne_zero hj
        exact .inr ⟨k, rest, by rw [Nat.succ_eq_add_one, Nat.add_right_comm, Nat.add_assoc], hat⟩

end

/-- **Every address of a forest is listed**, with the symbol that stands there. -/
theorem mem_listed_iff {forest : List Symbol} {a : List Nat} {s : Symbol} :
    (a, s) ∈ listed forest ↔ atAddress? forest a = some s := by
  rw [listed, mem_listedFrom]
  cases a with
  | nil => simp [atAddress?]
  | cons i rest => simp

theorem mem_filter_listed_iff {forest : List Symbol} {q : Symbol → Bool} {a : List Nat}
    {s : Symbol} :
    (a, s) ∈ (listed forest).filter (fun e => q e.2)
      ↔ atAddress? forest a = some s ∧ q s = true := by
  rw [List.mem_filter, mem_listed_iff]

/-! ## The list is in order -/

mutual

theorem pairwise_listedTree (s : Symbol) :
    (listedTree s).Pairwise fun e e' => Precedes e.1 e'.1 := by
  match s with
  | ⟨name, kind, range, selectionRange, detail, children⟩ =>
    rw [listedTree, List.pairwise_cons]
    refine ⟨?_, pairwise_listedFrom 0 children⟩
    -- the root has the empty address, and those inside it have longer ones
    rintro ⟨a, t⟩ hmem
    obtain ⟨j, rest, rfl, -⟩ := (mem_listedFrom 0 a t children).mp hmem
    exact List.Lex.nil

theorem pairwise_listedFrom (i : Nat) (forest : List Symbol) :
    (listedFrom i forest).Pairwise fun e e' => Precedes e.1 e'.1 := by
  match forest with
  | [] => exact List.Pairwise.nil
  | s :: trees =>
    rw [listedFrom, List.pairwise_append]
    refine ⟨?_, pairwise_listedFrom (i + 1) trees, ?_⟩
    · exact List.pairwise_map.mpr ((pairwise_listedTree s).imp List.Lex.cons)
    · -- addresses in the first tree begin with `i`, those in later trees with more
      rintro e he ⟨b, t⟩ hmem
      obtain ⟨e', -, rfl⟩ := List.mem_map.mp he
      obtain ⟨j, rest, rfl, -⟩ := (mem_listedFrom (i + 1) b t trees).mp hmem
      exact List.Lex.rel (by omega)

end

/-- **Addresses are listed in their order**, so none is listed twice. -/
theorem pairwise_listed (forest : List Symbol) :
    (listed forest).Pairwise fun e e' => Precedes e.1 e'.1 := pairwise_listedFrom 0 forest

/-! ## Searches through the walk -/

/-- The symbols with a property, in the order of the walk, are listed with their addresses. -/
theorem filter_flatten (forest : List Symbol) (q : Symbol → Bool) :
    (flatten forest).filter q = ((listed forest).filter fun e => q e.2).map Prod.snd := by
  rw [← map_listed, List.filter_map]
  rfl

/-- The symbols with a property, in the order of the walk, stand at the addresses of all such
symbols. -/
theorem exists_enumerates (forest : List Symbol) (q : Symbol → Bool) :
    ∃ addresses, Enumerates forest (fun s => q s = true) addresses
      ∧ addresses.map (atAddress? forest) = ((flatten forest).filter q).map some := by
  refine ⟨((listed forest).filter fun e => q e.2).map Prod.fst, ⟨?_, ?_⟩, ?_⟩
  · exact List.pairwise_map.mpr ((pairwise_listed forest).filter _)
  · intro a
    rw [List.mem_map]
    constructor
    · rintro ⟨⟨a, s⟩, he, rfl⟩
      exact ⟨s, mem_filter_listed_iff.mp he⟩
    · rintro ⟨s, hs⟩
      exact ⟨(a, s), mem_filter_listed_iff.mpr hs, rfl⟩
  · rw [filter_flatten, List.map_map, List.map_map]
    apply List.map_congr_left
    rintro ⟨a, s⟩ he
    exact (mem_filter_listed_iff.mp he).1

/-- A symbol is in the walk if it has an address. -/
theorem mem_flatten_iff {forest : List Symbol} {s : Symbol} :
    s ∈ flatten forest ↔ ∃ a, atAddress? forest a = some s := by
  rw [← map_listed, List.mem_map]
  constructor
  · rintro ⟨⟨a, t⟩, hmem, rfl⟩
    exact ⟨a, mem_listed_iff.mp hmem⟩
  · rintro ⟨a, hat⟩
    exact ⟨(a, s), mem_listed_iff.mpr hat, rfl⟩

/-- **The search through the walk finds what has the first address.** -/
theorem head?_filter_flatten_iff {forest : List Symbol} {q : Symbol → Bool} {s : Symbol} :
    ((flatten forest).filter q).head? = some s ↔ First forest q s := by
  rw [filter_flatten]
  have hmem : ∀ a t, (a, t) ∈ (listed forest).filter (fun e => q e.2)
      ↔ atAddress? forest a = some t ∧ q t = true := fun _ _ => mem_filter_listed_iff
  have horder := (pairwise_listed forest).filter fun e => q e.2
  generalize (listed forest).filter (fun e => q e.2) = found at hmem horder
  cases found with
  | nil =>
    constructor
    · intro hhead
      cases hhead
    · rintro ⟨a, hat, hq, -⟩
      exact absurd ((hmem a s).mpr ⟨hat, hq⟩) List.not_mem_nil
  | cons e more =>
    obtain ⟨hat, hq⟩ := (hmem e.1 e.2).mp List.mem_cons_self
    have hbehind : ∀ e' ∈ more, Precedes e.1 e'.1 := (List.pairwise_cons.mp horder).1
    constructor
    · intro hhead
      obtain rfl : e.2 = s := Option.some.inj hhead
      refine ⟨e.1, hat, hq, fun b t hat' hq' hne => ?_⟩
      -- what has another address is listed behind the head
      obtain heq | hmore := List.mem_cons.mp ((hmem b t).mpr ⟨hat', hq'⟩)
      · exact absurd (congrArg Prod.fst heq) hne
      · exact hbehind _ hmore
    · rintro ⟨a, hat', hq', hfirst⟩
      obtain heq | hmore := List.mem_cons.mp ((hmem a s).mpr ⟨hat', hq'⟩)
      · exact congrArg (some ∘ Prod.snd) heq.symm
      · -- then the head precedes `a`, and nothing with the property does
        have hbefore : Precedes e.1 a := hbehind _ hmore
        by_cases hne : e.1 = a
        · rw [hne] at hbefore
          exact absurd hbefore hbefore.not_precedes
        · exact absurd hbefore (hfirst e.1 e.2 hat hq hne).not_precedes

end SymbolQuery.Symbol
