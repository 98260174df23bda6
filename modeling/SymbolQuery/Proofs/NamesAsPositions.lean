/-
Names stand for positions, and hints for nothing.

A request for a name may carry a position as a hint. No part of a lookup looks at it, so
two such requests are not only answered alike: they are one program, with the same
questions at the same times and the same warnings.

The lookups of places and of hierarchies locate their target and go on with its position
alone. For a name they do at the end of the search what they do for the position of the
first symbol so called, begun at that time. Without a cancellation the time does not
matter, so both requests have the same tables.
-/
import SymbolQuery.Proofs.NameResolution

set_option autoImplicit false

namespace SymbolQuery

namespace LookupRequest

theorem target_atPosition (uri : String) (p : Position) :
    (atPosition uri p).target
      = if Text.isBlankText uri then .error .missingUri else .ok (.position p) := rfl

/-- A blank name counts as none. -/
theorem target_of_blank {name : String} (hblank : Text.isBlankText name = true) (uri : String)
    (line character : Option Nat) :
    target ⟨uri, line, character, some name⟩ = target ⟨uri, line, character, none⟩ := by
  have hnone : name? ⟨uri, line, character, some name⟩ = none := by
    simp [name?, hblank]
  rw [target, hnone]
  rfl

end LookupRequest

namespace Lookup

/-! ## Hints -/

section Hints

variable {m : Type → Type} [Asking m] {α : Type}

/-- What is done for a name is the same with every hint. -/
def HintFree (f : LookupTarget → m α) : Prop :=
  ∀ name hint hint', f (.name name hint) = f (.name name hint')

theorem hintFree_resolveTarget (deadline : Nat) (uri : String) :
    HintFree (resolveTarget (m := m) deadline uri) := fun _ _ _ => rfl

theorem accept_hint (r : Resolution) (name : String) (hint hint' : Option Position) :
    accept (m := m) (.name name hint) r = accept (.name name hint') r := by
  unfold accept
  cases r.error? <;> rfl

theorem hintFree_queryPoint (t : Timeouts) (uri : String) :
    HintFree (queryPoint (m := m) t uri) := by
  intro name hint hint'
  unfold queryPoint
  simp only [hintFree_resolveTarget t.symbols uri name hint hint', accept_hint _ name hint hint']

theorem hintFree_locationsAt (c : Config) (query : LocationQuery) (uri : String) :
    HintFree (locationsAt (m := m) c query uri) := by
  intro name hint hint'
  unfold locationsAt
  rw [hintFree_queryPoint c.timeouts uri name hint hint']

theorem hintFree_hoverAt (c : Config) (uri : String) : HintFree (hoverAt (m := m) c uri) := by
  intro name hint hint'
  unfold hoverAt
  rw [hintFree_queryPoint c.timeouts uri name hint hint']

theorem hintFree_childrenOf (c : Config) (uri : String) (depth : ChildDepth) :
    HintFree (childrenOf (m := m) c uri depth) := by
  intro name hint hint'
  unfold childrenOf
  simp only [hintFree_resolveTarget c.timeouts.symbols uri name hint hint',
    accept_hint _ name hint hint']

theorem hintFree_hierarchyAt (c : Config) (kind : HierarchyKind) (uri : String) :
    HintFree (hierarchyAt (m := m) c kind uri) := by
  intro name hint hint'
  unfold hierarchyAt
  rw [hintFree_queryPoint c.timeouts uri name hint hint']

/-- Two requests mean the same: they are about one document, and every lookup that does not look at
hints does the same for both. -/
structure SameMeaning (m : Type → Type) [Asking m] (r r' : LookupRequest) : Prop where
  uri : r.uri = r'.uri
  lookups : ∀ (α : Type) (f : LookupTarget → m α), HintFree f → withTarget r f = withTarget r' f

theorem sameMeaning_of_target {r r' : LookupRequest} (huri : r.uri = r'.uri)
    (h : r.target = r'.target) : SameMeaning m r r' := by
  refine ⟨huri, fun α f _ => ?_⟩
  rw [withTarget, withTarget, h]

theorem sameMeaning_of_name {r r' : LookupRequest} {name : String} (huri : r.uri = r'.uri)
    (h : r.name = some name) (h' : r'.name = some name) (hblank : Text.isBlankText name = false) :
    SameMeaning m r r' := by
  refine ⟨huri, fun α f hf => ?_⟩
  rw [withTarget, withTarget, LookupRequest.target_of_name h hblank,
    LookupRequest.target_of_name h' hblank, huri]
  by_cases hmissing : Text.isBlankText r'.uri = true
  · rw [if_pos hmissing, if_pos hmissing]
  · rw [if_neg hmissing, if_neg hmissing]
    dsimp only
    rw [hf name r.position? r'.position?]

/-- The lookup for another request; that of the symbols of a document has none. -/
def Inquiry.withRequest (request : LookupRequest) : Inquiry → Inquiry
  | .resolve _ => .resolve request
  | .documentSymbols uri => .documentSymbols uri
  | .locations query _ => .locations query request
  | .hover _ => .hover request
  | .children _ depth => .children request depth
  | .hierarchy kind _ => .hierarchy kind request

/-- No lookup looks at hints, so for requests that mean the same it is one program. -/
theorem Inquiry.answer_sameMeaning (i : Inquiry) {r r' : LookupRequest}
    (h : SameMeaning m r r') (c : Config) :
    ((i.withRequest r).answer c : m (Except MalformedInput Finding))
      = (i.withRequest r').answer c := by
  obtain ⟨huri, hsame⟩ := h
  cases i with
  | resolve request =>
    simp only [Inquiry.withRequest, Inquiry.answer, resolve_eq_withTarget, huri,
      hsame _ _ (hintFree_resolveTarget _ _)]
  | documentSymbols uri => rfl
  | locations query request =>
    simp only [Inquiry.withRequest, Inquiry.answer, Lookup.locations, huri,
      hsame _ _ (hintFree_locationsAt _ _ _)]
  | hover request =>
    simp only [Inquiry.withRequest, Inquiry.answer, Lookup.hover, huri,
      hsame _ _ (hintFree_hoverAt _ _)]
  | children request depth =>
    simp only [Inquiry.withRequest, Inquiry.answer, Lookup.children, huri,
      hsame _ _ (hintFree_childrenOf _ _ _)]
  | hierarchy kind request =>
    simp only [Inquiry.withRequest, Inquiry.answer, Lookup.hierarchy, huri,
      hsame _ _ (hintFree_hierarchyAt _ _ _)]

end Hints

/-! ## Positions -/

section Positions

variable {m : Type → Type} [Asking m] {α : Type}

/-- A lookup locates its target and goes on with the position alone, whatever symbol it is. -/
def Positional (t : Timeouts) (uri : String) (f : LookupTarget → m α) : Prop :=
  ∃ k : Option QueryPoint → m α, (∀ target, f target = queryPoint t uri target >>= k)
    ∧ ∀ p s s', k (some ⟨p, s⟩) = k (some ⟨p, s'⟩)

theorem positional_locationsAt (c : Config) (query : LocationQuery) (uri : String) :
    Positional c.timeouts uri (locationsAt (m := m) c query uri) := by
  refine ⟨_, fun target => rfl, fun p s s' => ?_⟩
  refine congrArg
    (Asking.ask (locationDeadline c.timeouts query) (.locations query uri p) >>= ·)
    (funext fun a => ?_)
  -- the type of the reply still speaks of the symbol, which goes once the reply is known
  cases Answer.reply query.label a with
  | error fault => rfl
  | ok found => rfl

theorem positional_hierarchyAt (c : Config) (kind : HierarchyKind) (uri : String) :
    Positional c.timeouts uri (hierarchyAt (m := m) c kind uri) :=
  ⟨_, fun _ => rfl, fun _ _ _ => rfl⟩

end Positions

section Runs

variable {c : Config} {w : World} {t t' : Nat} {uri name : String} {forest : List Symbol}
  {s : Symbol}

theorem exists_named_of_first (h : Symbol.First forest (fun s => s.name == name) s) :
    ∃ others, Symbol.named forest name = s :: others :=
  List.head?_eq_some_iff.mp (Symbol.head?_filter_flatten_iff.mpr h)

/-- A name is located at the anchor of the first symbol so called, when the symbols have come. -/
theorem yields_queryPoint_of_first
    (hanswer : w.Answers t c.timeouts.symbols (.symbols uri) forest t')
    (hfirst : Symbol.First forest (fun s => s.name == name) s) (hint : Option Position) :
    Timed.Yields w t (queryPoint c.timeouts uri (.name name hint)) fun point u =>
      (∃ symbol, point = some ⟨s.anchor, symbol⟩) ∧ u = t' := by
  obtain ⟨others, hnamed⟩ := exists_named_of_first hfirst
  have hlocated : Locates c w t uri (.name name hint) s.anchor t' := .name hanswer hnamed
  have hyields : Timed.Yields w t (queryPoint c.timeouts uri (.name name hint)) _ :=
    yields_queryPoint _
  obtain ⟨⟨p, symbol⟩, hpoint, hlocated'⟩ | ⟨-, hnowhere⟩ := hyields
  · obtain ⟨rfl, htime⟩ := hlocated.unique hlocated'
    exact ⟨⟨symbol, hpoint⟩, htime.symm⟩
  · exact absurd hlocated (hnowhere _ _)

/-- **A positional lookup of a name ends as that of the position** of the first symbol so called. -/
theorem Positional.value_eq {α : Type} {f : LookupTarget → Timed α}
    (hf : Positional c.timeouts uri f)
    (hanswer : w.Answers t c.timeouts.symbols (.symbols uri) forest t')
    (hfirst : Symbol.First forest (fun s => s.name == name) s) (hint : Option Position) :
    (f (.name name hint) w t).value = (f (.position s.anchor) w t').value := by
  obtain ⟨k, hk, halike⟩ := hf
  obtain ⟨⟨symbol, hpoint⟩, htime⟩ := yields_queryPoint_of_first hanswer hfirst hint
  rw [hk, hk]
  -- a position is located at once, so the second lookup goes on where it begins
  change (k (queryPoint (m := Timed) c.timeouts uri (.name name hint) w t).value w
      (queryPoint (m := Timed) c.timeouts uri (.name name hint) w t).finish).value
    = (k (some ⟨s.anchor, none⟩) w t').value
  rw [hpoint, htime, halike]

/-- The same for requests, whether their document has a URI or not. -/
theorem Positional.value_withTarget {α : Type} {f : LookupTarget → Timed α}
    (hf : Positional c.timeouts uri f) (hblank : Text.isBlankText name = false)
    (hanswer : w.Answers t c.timeouts.symbols (.symbols uri) forest t')
    (hfirst : Symbol.First forest (fun s => s.name == name) s) (line character : Option Nat) :
    (withTarget ⟨uri, line, character, some name⟩ f w t).value
      = (withTarget (.atPosition uri s.anchor) f w t').value := by
  unfold withTarget
  rw [LookupRequest.target_of_name rfl hblank, LookupRequest.target_atPosition]
  dsimp only
  by_cases hmissing : Text.isBlankText uri = true
  · rw [if_pos hmissing, if_pos hmissing]
    rfl
  · rw [if_neg hmissing, if_neg hmissing]
    exact congrArg Except.ok (hf.value_eq hanswer hfirst _)

end Runs

/-! ## Names and positions -/

/-- **Names answer as positions, and hints are inert.** If the symbols of a document come in time,
and among those of a name one comes first, then each query for places and both hierarchies give for
the name, with whatever hint, what they give for the position where the name of that symbol stands,
begun when the symbols have come; or begun at any time if nothing is cancelled.

Every lookup for a name is, with every hint, the same program as without one. A blank name is none:
a request with it is one without a name. -/
theorem names_answer_as_positions (c : Config) (uri name : String)
    (line character : Option Nat) :
    (Text.isBlankText name = false →
      (∀ (w : World) (t t' : Nat) (forest : List Symbol) (s : Symbol),
        w.Answers t c.timeouts.symbols (.symbols uri) forest t' →
        Symbol.First forest (fun s => s.name == name) s →
        ∀ u, u = t' ∨ w.cancelAt = none →
          (∀ query, (locations (m := Timed) c query ⟨uri, line, character, some name⟩ w t).value
            = (locations (m := Timed) c query (.atPosition uri s.selectionRange.start) w u).value)
          ∧ ∀ kind, (hierarchy (m := Timed) c kind ⟨uri, line, character, some name⟩ w t).value
            = (hierarchy (m := Timed) c kind (.atPosition uri s.selectionRange.start) w u).value)
      ∧ ∀ (m : Type → Type) [Asking m] (i : Inquiry),
        ((i.withRequest ⟨uri, line, character, some name⟩).answer c
            : m (Except MalformedInput Finding))
          = (i.withRequest (.named uri name)).answer c)
    ∧ (Text.isBlankText name = true → ∀ (m : Type → Type) [Asking m] (i : Inquiry),
        ((i.withRequest ⟨uri, line, character, some name⟩).answer c
            : m (Except MalformedInput Finding))
          = (i.withRequest ⟨uri, line, character, none⟩).answer c) := by
  refine ⟨fun hblank => ⟨?_, ?_⟩, ?_⟩
  · intro w t t' forest s hanswer hfirst u hu
    -- at `t'` the two lookups do the same, and without a cancellation `u` is as good as `t'`
    have hlater : ∀ {α : Type} {x : Timed α} {y : Untimed α}, Timeless x y →
        (x w t').value = (x w u).value := by
      intro α x y hxy
      obtain rfl | hcancel := hu
      · rfl
      · obtain ⟨p, cancelAt⟩ := w
        obtain rfl : cancelAt = none := hcancel
        rw [hxy p t', hxy p u]
    constructor
    · intro query
      rw [← hlater (timeless_locations c query _)]
      exact (positional_locationsAt c query uri).value_withTarget hblank hanswer hfirst line
        character
    · intro kind
      rw [← hlater (timeless_hierarchy c kind _)]
      exact (positional_hierarchyAt c kind uri).value_withTarget hblank hanswer hfirst line
        character
  · intro m _ i
    have hsame : SameMeaning m ⟨uri, line, character, some name⟩ (.named uri name) :=
      sameMeaning_of_name rfl rfl rfl hblank
    exact i.answer_sameMeaning hsame c
  · intro hblank m _ i
    have hsame : SameMeaning m ⟨uri, line, character, some name⟩ ⟨uri, line, character, none⟩ :=
      sameMeaning_of_target rfl (LookupRequest.target_of_blank hblank uri line character)
    exact i.answer_sameMeaning hsame c

/-- A function whose name does not stand at its start, with another one of its name inside. -/
def nameAside : Symbol :=
  ⟨"f", .function, ⟨⟨0, 0⟩, ⟨4, 0⟩⟩, .point ⟨1, 3⟩, none, [functionOn "f" 2]⟩

/-- A provider that takes some time for this function, and whose places are those it is asked
about. -/
def showsPlaces : Provider
  | .symbols _ => ⟨some 5, .ok [nameAside]⟩
  | .locations _ uri p => ⟨some 0, .ok [⟨uri, .point p⟩]⟩
  | q => twoOfEach q

/-- The name is asked about where it stands, and not at the start of the function, inside it or at
the hint. -/
theorem names_answer_as_positions_aside :
    let hinted : LookupRequest := ⟨"a", some 2, some 0, some "f"⟩
    let place := LookupRequest.atPosition "a" ⟨1, 3⟩
    let w : World := ⟨showsPlaces, none⟩
    (locations (m := Timed) {} .references hinted w 0).value
        = (locations (m := Timed) {} .references place w 0).value
      ∧ (hierarchy (m := Timed) {} .call hinted w 0).value
        = (hierarchy (m := Timed) {} .call place w 0).value
      ∧ ((Inquiry.hover hinted).answer {} : Timed (Except MalformedInput Finding))
        = (Inquiry.hover (.named "a" "f")).answer {}
      ∧ (locations (m := Timed) {} .references hinted w 0).value.map Table.rows
        = .ok ["a | 1:3-1:3 |  | EOL"] := by
  intro hinted place w
  obtain ⟨hplaces, hhints⟩ :=
    (names_answer_as_positions {} "a" "f" (some 2) (some 0)).1 (by decide)
  have hanswer : w.Answers 0 10000 (.symbols "a") [nameAside] 5 := by
    refine ⟨rfl, ⟨5, rfl, by decide, rfl⟩, ?_⟩
    rintro _ ⟨⟩
  have hfirst : Symbol.First [nameAside] (fun s => s.name == "f") nameAside :=
    Symbol.head?_filter_flatten_iff.mp rfl
  obtain ⟨hlocations, hhierarchy⟩ := hplaces w 0 5 _ _ hanswer hfirst 0 (.inr rfl)
  refine ⟨hlocations .references, hhierarchy .call, hhints Timed (.hover hinted), ?_⟩
  decide +kernel

end Lookup

end SymbolQuery
