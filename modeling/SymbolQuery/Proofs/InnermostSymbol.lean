/-
Which symbol stands at a position.

Symbols may overlap in any way, and ranges may run backwards, so the symbols around a
position need not lie in each other. Nevertheless the search by extent does what is meant
by "innermost": among ranges that hold one common position, a range that lies in another
one has the smaller extent. A range that holds a position does not run backwards, so its
lines are counted as they are, and where both ranges begin and end in the same lines the
columns decide.

Of equal extents the first in the walk is found. This is said by addresses, which tell
apart also symbols that are equal.
-/
import SymbolQuery.Proofs.SymbolAddresses

set_option autoImplicit false

namespace SymbolQuery

/-! ## Ranges around a position -/

/-- `p` stands in an earlier line than `q`, or in the same line and not behind it. -/
def Position.AtOrBefore (p q : Position) : Prop :=
  p.line < q.line ∨ p.line = q.line ∧ p.character ≤ q.character

theorem Position.before_iff {p q : Position} : p.before q = true ↔ p.AtOrBefore q := by
  simp [before, AtOrBefore]

namespace Range

/-- The position lies between the ends of the range or on one of them. -/
def Holds (r : Range) (p : Position) : Prop := r.start.AtOrBefore p ∧ p.AtOrBefore r.stop

/-- The range has fewer lines, or as many lines and fewer columns. -/
def Smaller (r r' : Range) : Prop :=
  r.extent.1 < r'.extent.1 ∨ r.extent.1 = r'.extent.1 ∧ r.extent.2 < r'.extent.2

/-- The range lies in the other one and is not the same. -/
def StrictlyInside (r r' : Range) : Prop :=
  r'.start.AtOrBefore r.start ∧ r.stop.AtOrBefore r'.stop ∧ r ≠ r'

theorem contains_iff {r : Range} {p : Position} : r.contains p = true ↔ r.Holds p := by
  rw [contains, Bool.and_eq_true, Position.before_iff, Position.before_iff]
  rfl

theorem extentLess_iff {r r' : Range} : extentLess r.extent r'.extent = true ↔ r.Smaller r' := by
  simp [extentLess, Smaller]

theorem Smaller.asymm {r r' : Range} (h : r.Smaller r') : ¬ r'.Smaller r := by
  unfold Smaller at h ⊢
  omega

theorem Smaller.trans {r r' r'' : Range} (h : r.Smaller r') (h' : r'.Smaller r'') :
    r.Smaller r'' := by
  unfold Smaller at h h' ⊢
  omega

/-- Whatever is smaller than a range is smaller than all that is not. -/
theorem Smaller.smaller_or {r r' : Range} (h : r.Smaller r') (r'' : Range) :
    r.Smaller r'' ∨ r''.Smaller r' := by
  unfold Smaller at h ⊢
  omega

theorem Smaller.extent_ne {r r' : Range} (h : r.Smaller r') : r.extent ≠ r'.extent := by
  intro hsame
  rw [Smaller, hsame] at h
  omega

theorem extent_eq_of_not_smaller {r r' : Range} (h : ¬ r.Smaller r') (h' : ¬ r'.Smaller r) :
    r.extent = r'.extent := by
  unfold Smaller at h h'
  refine Prod.ext ?_ ?_
  · omega
  · omega

/-- **A range inside another one is smaller**, if it holds a position at all. -/
theorem StrictlyInside.smaller {r r' : Range} {p : Position} (h : r.StrictlyInside r')
    (hp : r.Holds p) : r.Smaller r' := by
  obtain ⟨⟨l, c⟩, ⟨m, d⟩⟩ := r
  obtain ⟨⟨l', c'⟩, ⟨m', d'⟩⟩ := r'
  obtain ⟨hstart, hstop, hne⟩ := h
  obtain ⟨hafter, hbefore⟩ := hp
  simp only [ne_eq, Range.mk.injEq, Position.mk.injEq] at hne
  simp only [Position.AtOrBefore] at hstart hstop hafter hbefore
  -- the position keeps the inner range from running backwards
  have hforward : l ≤ m := by omega
  simp only [Smaller, extent]
  omega

end Range

namespace Symbol

/-! ## The search through a list -/

theorem innermost_eq_none_iff {range : Symbol → Range} {l : List Symbol} :
    innermost range l = none ↔ l = [] := by
  cases l with
  | nil => simp [innermost]
  | cons s rest =>
    rw [innermost]
    cases innermost range rest with
    | none => simp
    | some t =>
      dsimp only
      split <;> simp

/-- The search finds what is smaller than all before it and not larger than anything behind it. -/
theorem exists_split_of_innermost {range : Symbol → Range} {l : List Symbol} {s : Symbol}
    (h : innermost range l = some s) :
    ∃ front back, l = front ++ s :: back ∧ (∀ t ∈ front, (range s).Smaller (range t))
      ∧ ∀ t ∈ back, ¬ (range t).Smaller (range s) := by
  induction l generalizing s with
  | nil => cases h
  | cons u rest ih =>
    rw [innermost] at h
    cases hrest : innermost range rest with
    | none =>
      rw [hrest] at h
      obtain rfl := Option.some.inj h
      obtain rfl := innermost_eq_none_iff.mp hrest
      exact ⟨[], [], rfl, List.forall_mem_nil _, List.forall_mem_nil _⟩
    | some m =>
      rw [hrest] at h
      obtain ⟨front, back, rfl, hfront, hback⟩ := ih hrest
      by_cases hless : Range.extentLess (range m).extent (range u).extent = true
      · -- the rest has something smaller than its head
        obtain rfl : m = s := Option.some.inj ((if_pos hless).symm.trans h)
        refine ⟨u :: front, back, rfl, ?_, hback⟩
        exact List.forall_mem_cons.mpr ⟨Range.extentLess_iff.mp hless, hfront⟩
      · -- nothing in the rest is smaller than the head, as not even the smallest in it is
        obtain rfl : u = s := Option.some.inj ((if_neg hless).symm.trans h)
        rw [Range.extentLess_iff] at hless
        refine ⟨[], front ++ m :: back, rfl, List.forall_mem_nil _, fun t ht hsmaller => ?_⟩
        obtain ht | ht := List.mem_append.mp ht
        · exact hless ((hfront t ht).trans hsmaller)
        · obtain rfl | ht := List.mem_cons.mp ht
          · exact hless hsmaller
          · exact (hsmaller.smaller_or (range m)).elim (hback t ht) hless

/-! ## The search through a forest -/

/-- A symbol whose range holds the position, has the least extent of all such ranges, and of equally
small ones stands first in the walk. -/
def Innermost (range : Symbol → Range) (forest : List Symbol) (p : Position) (s : Symbol) : Prop :=
  ∃ a, atAddress? forest a = some s ∧ (range s).Holds p
    ∧ ∀ b t, atAddress? forest b = some t → (range t).Holds p → b ≠ a →
      (range s).Smaller (range t) ∨ (range s).extent = (range t).extent ∧ Precedes a b

/-- The ranges that count at a position: those of names if one of them holds it, and else the whole
ranges. -/
inductive Counts (forest : List Symbol) (p : Position) : (Symbol → Range) → Prop
  | names {a : List Nat} {s : Symbol} (hat : atAddress? forest a = some s)
      (hp : s.selectionRange.Holds p) : Counts forest p selectionRange
  | wholes (h : ∀ a s, atAddress? forest a = some s → ¬ s.selectionRange.Holds p) :
      Counts forest p range

variable {forest : List Symbol} {p : Position} {range : Symbol → Range} {s : Symbol}

/-- There is one innermost symbol at most. -/
theorem Innermost.unique {s' : Symbol} (h : Innermost range forest p s)
    (h' : Innermost range forest p s') : s = s' := by
  obtain ⟨a, hat, hp, hleast⟩ := h
  obtain ⟨a', hat', hp', hleast'⟩ := h'
  by_cases ha : a' = a
  · rw [ha, hat] at hat'
    exact Option.some.inj hat'
  · exfalso
    obtain hless | ⟨hsame, hbefore⟩ := hleast a' s' hat' hp' ha
    · obtain hless' | ⟨hsame', -⟩ := hleast' a s hat hp (Ne.symm ha)
      · exact hless.asymm hless'
      · exact hless.extent_ne hsame'.symm
    · obtain hless' | ⟨-, hbefore'⟩ := hleast' a s hat hp (Ne.symm ha)
      · exact hless'.extent_ne hsame.symm
      · exact hbefore.not_precedes hbefore'

/-- Nothing around the position lies strictly inside the range of the innermost symbol. -/
theorem Innermost.not_strictlyInside (h : Innermost range forest p s) {b : List Nat} {t : Symbol}
    (hat : atAddress? forest b = some t) (hp : (range t).Holds p) :
    ¬ (range t).StrictlyInside (range s) := by
  intro hinside
  obtain ⟨a, hat', -, hleast⟩ := h
  have hless : (range t).Smaller (range s) := hinside.smaller hp
  by_cases hb : b = a
  · rw [hb, hat'] at hat
    obtain rfl := Option.some.inj hat
    exact hless.asymm hless
  · obtain hgreater | ⟨hsame, -⟩ := hleast b t hat hp hb
    · exact hless.asymm hgreater
    · exact hless.extent_ne hsame.symm

/-- **The search finds the innermost symbol.** -/
theorem innermost_of_innermostAt (h : innermostAt range (flatten forest) p = some s) :
    Innermost range forest p s := by
  rw [innermostAt, filter_flatten] at h
  obtain ⟨front, back, hsplit, hfront, hback⟩ := exists_split_of_innermost h
  -- the split of the walk is one of the addresses, which stand in their order
  obtain ⟨before, rest, hlisted, rfl, hrest⟩ := List.map_eq_append_iff.mp hsplit
  obtain ⟨⟨a, t⟩, behind, rfl, rfl, rfl⟩ := List.map_eq_cons_iff.mp hrest
  have hmem : ∀ b u, (b, u) ∈ before ++ (a, t) :: behind
      ↔ atAddress? forest b = some u ∧ (range u).Holds p := by
    intro b u
    rw [← hlisted, ← Range.contains_iff]
    exact mem_filter_listed_iff (q := fun s => (range s).contains p)
  have horder : (before ++ (a, t) :: behind).Pairwise fun e e' => Precedes e.1 e'.1 :=
    hlisted ▸ (pairwise_listed forest).filter _
  obtain ⟨hat, hp⟩ := (hmem a t).mp (List.mem_append_right _ List.mem_cons_self)
  refine ⟨a, hat, hp, fun b u hat' hp' hne => ?_⟩
  obtain hbefore | hbehind := List.mem_append.mp ((hmem b u).mpr ⟨hat', hp'⟩)
  · exact .inl (hfront u (List.mem_map_of_mem hbefore))
  obtain heq | hbehind := List.mem_cons.mp hbehind
  · exact absurd (congrArg Prod.fst heq) hne
  · -- behind it nothing is smaller, and what is as small has a later address
    have hnot := hback u (List.mem_map_of_mem hbehind)
    by_cases hless : (Range.Smaller (range t) (range u))
    · exact .inl hless
    · refine .inr ⟨Range.extent_eq_of_not_smaller hless hnot, ?_⟩
      exact (List.pairwise_cons.mp (List.pairwise_append.mp horder).2.1).1 _ hbehind

/-- The search finds nothing exactly if no range holds the position. -/
theorem innermostAt_eq_none_iff :
    innermostAt range (flatten forest) p = none
      ↔ ∀ a s, atAddress? forest a = some s → ¬ (range s).Holds p := by
  rw [innermostAt, innermost_eq_none_iff, List.filter_eq_nil_iff]
  constructor
  · intro h a s hat hp
    exact h s (mem_flatten_iff.mpr ⟨a, hat⟩) (Range.contains_iff.mpr hp)
  · intro h s hs hp
    obtain ⟨a, hat⟩ := mem_flatten_iff.mp hs
    exact h a s hat (Range.contains_iff.mp hp)

/-! ## The symbol at a position -/

theorem exists_counts (forest : List Symbol) (p : Position) : ∃ range, Counts forest p range := by
  by_cases hnames : ∃ a s, atAddress? forest a = some s ∧ s.selectionRange.Holds p
  · obtain ⟨a, s, hat, hp⟩ := hnames
    exact ⟨_, .names hat hp⟩
  · exact ⟨_, .wholes fun a s hat hp => hnames ⟨a, s, hat, hp⟩⟩

/-- The symbol at a position is looked for by the ranges that count there. -/
theorem locateAt_of_counts (h : Counts forest p range) :
    locateAt forest p = innermostAt range (flatten forest) p := by
  rw [locateAt]
  cases hnames : innermostAt selectionRange (flatten forest) p with
  | none =>
    obtain ⟨hat, hp⟩ | _ := h
    · exact absurd hp (innermostAt_eq_none_iff.mp hnames _ _ hat)
    · rfl
  | some s =>
    obtain _ | hwholes := h
    · exact hnames.symm
    · obtain ⟨a, hat, hp, -⟩ := innermost_of_innermostAt hnames
      exact absurd hp (hwholes a s hat)

theorem innermost_of_locateAt (h : Counts forest p range) (hs : locateAt forest p = some s) :
    Innermost range forest p s :=
  innermost_of_innermostAt ((locateAt_of_counts h).symm.trans hs)

theorem locateAt_eq_none_iff :
    locateAt forest p = none ↔ ∀ a s, atAddress? forest a = some s →
      ¬ s.selectionRange.Holds p ∧ ¬ s.range.Holds p := by
  obtain ⟨range, hrange⟩ := exists_counts forest p
  rw [locateAt_of_counts hrange, innermostAt_eq_none_iff]
  obtain ⟨hat, hp⟩ | hwholes := hrange
  · -- the position is on a name, so neither side holds
    constructor
    · intro h
      exact absurd hp (h _ _ hat)
    · intro h
      exact absurd hp (h _ _ hat).1
  · constructor
    · intro h a s hat
      exact ⟨hwholes a s hat, h a s hat⟩
    · intro h a s hat
      exact (h a s hat).2

/-- **The symbol at a position is the innermost one.** None is found exactly if the position is in
no range of any symbol. A symbol is found exactly if it is the innermost one by the ranges that
count: those of names if the position is on a name, and else the whole ranges. No symbol around the
position then has its range strictly inside that of the one found. -/
theorem locateAt_finds_innermost (forest : List Symbol) (p : Position) :
    (locateAt forest p = none ↔ ∀ a s, atAddress? forest a = some s →
        ¬ s.selectionRange.Holds p ∧ ¬ s.range.Holds p)
      ∧ (∀ s, locateAt forest p = some s
        ↔ ∃ range, Counts forest p range ∧ Innermost range forest p s)
      ∧ ∀ s range, locateAt forest p = some s → Counts forest p range →
        ∀ b t, atAddress? forest b = some t → (range t).Holds p →
          ¬ (range t).StrictlyInside (range s) := by
  refine ⟨locateAt_eq_none_iff, ?_, ?_⟩
  · intro s
    constructor
    · intro hs
      obtain ⟨range, hrange⟩ := exists_counts forest p
      exact ⟨range, hrange, innermost_of_locateAt hrange hs⟩
    · rintro ⟨range, hrange, hs⟩
      -- a symbol whose range holds the position is there, so the search finds one
      cases hfound : locateAt forest p with
      | none =>
        obtain ⟨a, hat, hp, -⟩ := hs
        rw [locateAt_of_counts hrange] at hfound
        exact absurd hp (innermostAt_eq_none_iff.mp hfound a s hat)
      | some s' => rw [(innermost_of_locateAt hrange hfound).unique hs]
  · intro s range hs hrange b t hat hp
    exact (innermost_of_locateAt hrange hs).not_strictlyInside hat hp

/-- Of two ranges that only overlap, the one with fewer lines is taken, though the other one is
that of the earlier symbol. -/
example :
    let long : Symbol := ⟨"long", .function, ⟨⟨0, 0⟩, ⟨9, 0⟩⟩, ⟨⟨0, 6⟩, ⟨0, 10⟩⟩, none, []⟩
    let short : Symbol := ⟨"short", .function, ⟨⟨8, 0⟩, ⟨12, 0⟩⟩, ⟨⟨8, 6⟩, ⟨8, 11⟩⟩, none, []⟩
    (locateAt [long, short] ⟨8, 20⟩).map Symbol.name = some "short" := by
  decide

end Symbol

end SymbolQuery
