/-
How long a lookup may take.

Every question is asked under a deadline, so a lookup takes no longer than the deadlines
of the questions that it asks one after the other. How many these are depends on what
the provider answers: `Within` bounds the time of an action and says of its value what
the actions after it need for their own bounds.

Two bounds need an argument. Documents for previews are read one after the other, each
once, also one that could not be read. Hover texts are asked for eight at a time, and
the text of a symbol begins when the text eight symbols before it has been taken, which
may be long after it came; the texts of each further eight symbols still take no more
than one deadline more.
-/
import Mathlib.Data.Finset.Card
import SymbolQuery.Proofs.Untimed

set_option autoImplicit false

namespace SymbolQuery

/-- Whatever comes of a question is a cancellation or what the provider answers in time. -/
theorem Timed.value_ask (deadline : Nat) (q : Question) (w : World) (t : Nat) :
    (Timed.ask deadline q w t).value = .error .cancelled
      ∨ (Timed.ask deadline q w t).value = w.provider.answer deadline q := by
  obtain ⟨p, cancelAt⟩ := w
  have hfree : (Timed.ask deadline q ⟨p, none⟩ t).value = p.answer deadline q :=
    Timeless.ask deadline q p t
  cases cancelAt with
  | none => exact .inr hfree
  | some c =>
    by_cases hbegins : begins (some c) t = true
    · rw [ask_of_begins hbegins, race_some]
      by_cases hcut : c ≤ (race t deadline (p q).delay none).2
      · rw [if_pos hcut]
        exact .inl rfl
      · -- the race ends before the cancellation, as it does without one
        rw [if_neg hcut]
        rw [ask_of_begins (begins_none t)] at hfree
        exact .inr hfree
    · rw [ask_of_not_begins hbegins]
      exact .inl rfl

/-! ## Bounds on time -/

/-- In this world the action takes at most `n` milliseconds, whenever it begins, and its value has
the property `Q`. -/
def Within {α : Type} (w : World) (n : Nat) (x : Timed α) (Q : α → Prop) : Prop :=
  ∀ t, (x w t).finish ≤ t + n ∧ Q (x w t).value

namespace Within

variable {α β : Type} {w : World} {n k : Nat} {Q : α → Prop} {R : β → Prop}

theorem pure {a : α} (h : Q a) : Within w n (Pure.pure a) Q :=
  fun t => ⟨Nat.le_add_right t n, h⟩

theorem warn (warning : Warning) : Within w n (Asking.warn warning) fun _ => True :=
  fun t => ⟨Nat.le_add_right t n, trivial⟩

/-- Less time is also within a longer one, and what holds of a value may be forgotten. -/
theorem weaken {x : Timed α} {Q' : α → Prop} (h : Within w n x Q) (hn : n ≤ k)
    (hQ : ∀ a, Q a → Q' a) : Within w k x Q' := by
  intro t
  have ht := h t
  exact ⟨by omega, hQ _ ht.2⟩

/-- The times of two actions that follow each other add up. -/
theorem bind {x : Timed α} {f : α → Timed β} (hx : Within w n x Q)
    (hf : ∀ a, Q a → Within w k (f a) R) : Within w (n + k) (x >>= f) R := by
  intro t
  have hfirst := hx t
  have hsecond := hf (x w t).value hfirst.2 (x w t).finish
  have hfinish : ((x >>= f) w t).finish = (f (x w t).value w (x w t).finish).finish := rfl
  refine ⟨?_, hsecond.2⟩
  rw [hfinish]
  omega

/-- What is only made of the value takes no time. -/
theorem map {x : Timed α} {g : α → β} (hx : Within w n x Q) :
    Within w n (x >>= fun a => Pure.pure (g a)) fun _ => True :=
  hx.bind (k := 0) fun _ _ => .pure trivial

/-- A bound on the time alone. -/
theorem time {x : Timed α} (hx : Within w n x Q) : Within w n x fun _ => True :=
  hx.weaken (Nat.le_refl n) fun _ _ => trivial

/-- The later one of two actions that begin together counts. -/
theorem both {x : Timed α} {y : Timed β} (hx : Within w n x Q) (hy : Within w n y R) :
    Within w n (Asking.both x y) fun r => Q r.1 ∧ R r.2 := by
  intro t
  have hleft := hx t
  have hright := hy t
  exact ⟨Nat.max_le.mpr ⟨hleft.1, hright.1⟩, hleft.2, hright.2⟩

/-- A question takes no longer than its deadline, and a reply is what the provider answers by
then. -/
theorem ask (deadline : Nat) (q : Question) :
    Within w deadline (Asking.ask deadline q)
      fun a => ∀ b, a = .ok b → w.provider.answer deadline q = .ok b := by
  intro t
  constructor
  · change (Timed.ask deadline q w t).finish ≤ t + deadline
    by_cases hbegins : begins w.cancelAt t = true
    · rw [Timed.ask_of_begins hbegins]
      exact race_le t deadline _ _ hbegins
    · rw [Timed.ask_of_not_begins hbegins]
      exact Nat.le_add_right t deadline
  · intro b (hb : (Timed.ask deadline q w t).value = .ok b)
    rcases Timed.value_ask deadline q w t with hcancelled | hanswer
    · rw [hcancelled] at hb
      cases hb
    · rw [← hanswer, hb]

end Within

/-! ## Windows -/

/-- **One deadline for each full window.** Suppose that `i` of the results are taken already. A slot
`j` places from the head is free by the time at which all windows before result `i + j` are over,
and that is how long the results so far took. -/
theorem finish_windowFrom_le {α γ : Type} {w : World} {d : Nat} {f : γ → Timed α} {Q : α → Prop}
    (h : ∀ a, Within w d (f a) Q) (cs : List γ) (base i : Nat) (slots : List Nat) (last : Nat)
    (hne : 0 < slots.length)
    (hslots : ∀ j s, slots[j]? = some s → s ≤ base + d * ((i + j) / slots.length))
    (hlast : last ≤ base + d * ((i + slots.length - 1) / slots.length)) :
    (Timed.windowFrom w slots last (cs.map f)).finish
      ≤ base + d * ((i + cs.length + slots.length - 1) / slots.length) := by
  induction cs generalizing i slots last with
  | nil => exact hlast
  | cons a cs ih =>
    obtain ⟨first, rest, rfl⟩ := List.exists_cons_of_length_pos hne
    let width := (first :: rest).length
    -- the action begins with the window of result `i` and ends within one deadline
    have hfirst : first ≤ base + d * (i / width) := hslots 0 first rfl
    have hstep : d * (i / width) + d = d * ((i + width) / width) := by
      rw [Nat.add_div_right i hne, Nat.mul_succ]
    have hfinish : (f a w first).finish ≤ first + d := (h a first).1
    have hmono : d * ((i + width - 1) / width) ≤ d * ((i + width) / width) :=
      Nat.mul_le_mul_left d (Nat.div_le_div_right (Nat.sub_le _ _))
    let taken := max last (f a w first).finish
    have htaken : taken ≤ base + d * ((i + width) / width) := by
      have hlast' : last ≤ base + d * ((i + width - 1) / width) := hlast
      omega
    have hlength : (rest ++ [taken]).length = width := by
      rw [List.length_append, List.length_singleton]
      rfl
    have hnext : ∀ j s, (rest ++ [taken])[j]? = some s →
        s ≤ base + d * ((i + 1 + j) / (rest ++ [taken]).length) := by
      intro j s hs
      rw [hlength]
      by_cases hj : j < rest.length
      · rw [List.getElem?_append_left hj] at hs
        have hslot := hslots (j + 1) s hs
        rwa [show i + (j + 1) = i + 1 + j by omega] at hslot
      · -- the slot at the end is the one that was just made free
        have hj' : j = rest.length := by
          have hbound := (List.getElem?_eq_some_iff.mp hs).1
          rw [List.length_append, List.length_singleton] at hbound
          omega
        rw [hj', List.getElem?_concat_length] at hs
        rw [← Option.some.inj hs, show i + 1 + j = i + width by rw [hj']; simp [width]; omega]
        exact htaken
    have hrun := ih (i + 1) (rest ++ [taken]) taken (by rw [hlength]; exact hne) hnext
      (by rwa [hlength, show i + 1 + width - 1 = i + width by omega])
    rw [hlength, show i + 1 + cs.length + width - 1 = i + (a :: cs).length + width - 1 by
      rw [List.length_cons]; omega] at hrun
    exact hrun

/-- A window takes one deadline for each `width` of its actions, rounded up. -/
theorem Within.window {α γ : Type} {w : World} {d width : Nat} {f : γ → Timed α} {Q : α → Prop}
    (hwidth : 0 < width) (h : ∀ a, Within w d (f a) Q) (cs : List γ) :
    Within w (d * ((cs.length + width - 1) / width)) (Asking.window width (cs.map f))
      fun _ => True := by
  intro t
  refine ⟨?_, trivial⟩
  have hlength : (List.replicate width t).length = width := List.length_replicate
  -- at the start nothing is taken and all slots are free
  have hrun := finish_windowFrom_le h cs t 0 (List.replicate width t) t (by rwa [hlength])
    (by
      intro j s hs
      rw [List.eq_of_mem_replicate (List.mem_of_getElem? hs)]
      exact Nat.le_add_right _ _)
    (Nat.le_add_right _ _)
  rw [hlength, Nat.zero_add] at hrun
  exact hrun

/-! ## What a provider lists in time -/

/-- The things that an answer lists, none if there is no reply. -/
def Answer.listed {β : Type} : Answer (List β) → List β
  | .ok (.ok all) => all
  | _ => []

namespace Provider

/-- The symbols of a document. -/
def forest (p : Provider) (deadline : Nat) (uri : String) : List Symbol :=
  Answer.listed (β := Symbol) (p.answer deadline (.symbols uri))

/-- The position that a target stands for. -/
def positionOf (p : Provider) (t : Timeouts) (uri : String) : LookupTarget → Option Position
  | .position q => some q
  | .name name _ => (Symbol.named (p.forest t.symbols uri) name).head?.map Symbol.anchor

/-- The places that belong to a target. -/
def places (p : Provider) (t : Timeouts) (query : LocationQuery) (uri : String)
    (target : LookupTarget) : List Location :=
  match p.positionOf t uri target with
  | some q =>
    Answer.listed (β := Location)
      (p.answer (Lookup.locationDeadline t query) (.locations query uri q))
  | none => []

end Provider

theorem eq_of_reply_ok {β : Type} {operation : String} {a : Answer β} {b : β}
    (h : a.reply operation = .ok b) : a = .ok (.ok b) := by
  rcases a with (_ | _) | (_ | _)
  · cases h
  · cases h
  · cases h
  · rw [Except.ok.inj h]

namespace Lookup

variable {w : World}

/-! ## Documents -/

theorem within_document (deadline : Nat) (uri : String) :
    Within w deadline (document deadline uri) fun _ => True := by
  refine (Within.ask deadline (.document uri)).bind (k := 0) ?_
  rintro ((_ | _) | (_ | _)) _ <;> exact .pure trivial

theorem within_wordAt (deadline : Nat) (uri : String) (p : Position) :
    Within w deadline (wordAt deadline uri p) fun _ => True := by
  refine (within_document deadline uri).bind (k := 0) ?_
  rintro (_ | _) _ <;> exact .pure trivial

/-- The documents that were read are those that are found among them. -/
theorem mem_read_iff (read : List (String × Option String)) (uri : String) :
    uri ∈ (read.map Prod.fst).toFinset ↔ (read.lookup uri).isSome = true := by
  rw [List.mem_toFinset, List.mem_map, List.lookup_isSome_iff]
  constructor
  · rintro ⟨e, he, rfl⟩
    exact ⟨e, he, beq_self_eq_true e.1⟩
  · rintro ⟨e, he, heq⟩
    exact ⟨e, he, (beq_iff_eq.mp heq).symm⟩

/-- **One deadline for each document.** Reading the documents of places takes a deadline for each
that was not read before. -/
theorem within_previewsFrom (deadline : Nat) (read : List (String × Option String))
    (ls : List Location) :
    Within w (deadline * ((ls.map Location.uri).toFinset \ (read.map Prod.fst).toFinset).card)
      (previewsFrom deadline read ls) fun _ => True := by
  induction ls generalizing read with
  | nil => exact .pure trivial
  | cons l rest ih =>
    rw [previewsFrom, List.map_cons, List.toFinset_cons]
    let others := (rest.map Location.uri).toFinset
    let known := (read.map Prod.fst).toFinset
    cases hl : read.lookup l.uri with
    | some text =>
      -- the document was read before, so there are as many to read as without this place
      have hmem : l.uri ∈ known := (mem_read_iff read l.uri).mpr (by rw [hl]; rfl)
      have hsame : insert l.uri others \ known = others \ known :=
        Finset.insert_sdiff_of_mem others hmem
      rw [hsame]
      exact (ih read).map
    | none =>
      -- the document is read now, whether it can be read or not, and never again
      have hnew : l.uri ∉ known := by
        intro hmem
        have hfound := (mem_read_iff read l.uri).mp hmem
        rw [hl] at hfound
        cases hfound
      have hmem : l.uri ∈ insert l.uri others \ known :=
        Finset.mem_sdiff.mpr ⟨Finset.mem_insert_self _ _, hnew⟩
      have hone : (others \ insert l.uri known).card + 1 = (insert l.uri others \ known).card := by
        rw [← Finset.card_erase_add_one hmem, ← Finset.sdiff_insert, Finset.insert_sdiff_insert]
      rw [← hone, Nat.mul_add, Nat.mul_one, Nat.add_comm]
      refine (within_document deadline l.uri).bind fun text _ => ?_
      have hrest := ih ((l.uri, text) :: read)
      rw [List.map_cons, List.toFinset_cons] at hrest
      exact hrest.map

/-- The documents of the places that a table shows. -/
def shownDocuments (o : OutputLimits) (query : LocationQuery) (found : List Location) :
    Finset String :=
  ((found.take (Table.visibleRows o found.length (isSampled query))).map Location.uri).toFinset

theorem within_previews (deadline : Nat) (ls : List Location) (limit : Nat) :
    Within w (deadline * ((ls.take limit).map Location.uri).toFinset.card)
      (previews deadline ls limit) fun _ => True := by
  have hread := within_previewsFrom (w := w) deadline [] (ls.take limit)
  rw [List.map_nil, List.toFinset_nil, Finset.sdiff_empty] at hread
  exact hread.map

/-! ## Targets -/

/-- The time for finding the position of a target: a position is known, a name is looked for. -/
def naming (t : Timeouts) : LookupTarget → Nat
  | .position _ => 0
  | .name _ _ => t.symbols

/-- The time for finding the word at a target: a name is known. -/
def wording (t : Timeouts) : LookupTarget → Nat
  | .position _ => t.preview
  | .name _ _ => 0

theorem within_fetchSymbols (deadline : Nat) (uri : String) :
    Within w deadline (fetchSymbols deadline uri)
      fun r => ∀ forest, r = .ok forest → w.provider.forest deadline uri = forest := by
  refine (Within.ask deadline (.symbols uri)).bind (k := 0) fun a ha => .pure ?_
  intro forest hforest
  rw [Provider.forest, ha _ (eq_of_reply_ok hforest)]
  rfl

theorem within_resolveTarget (deadline : Nat) (uri : String) (target : LookupTarget) :
    Within w deadline (resolveTarget deadline uri target)
      fun r => r.Sound ∧ ∀ s, r.symbol? = some s →
        (resolveIn (w.provider.forest deadline uri) target).symbol? = some s := by
  refine (within_fetchSymbols deadline uri).bind (k := 0) ?_
  rintro (fault | forest) hforest
  · -- without the symbols nothing is found
    refine .pure ⟨Resolution.sound_failed _, fun s h => ?_⟩
    cases h
  · refine .pure ⟨sound_resolveIn _ _, fun s h => ?_⟩
    rw [hforest forest rfl, h]

/-- Accepting a resolution asks nothing. -/
theorem within_accept (target : LookupTarget) (r : Resolution) :
    Within w 0 (accept target r) fun s => s = r.accepted := by
  unfold accept Resolution.accepted
  cases r.error? with
  | some text => exact (Within.warn (n := 0) _).bind (k := 0) fun _ _ => .pure rfl
  | none =>
    cases target with
    | position p => exact .pure rfl
    | name name hint =>
      dsimp only
      split
      · exact .pure rfl
      · exact (Within.warn (n := 0) _).bind (k := 0) fun _ _ => .pure rfl

/-- What a point has to do with the target that it was found for. -/
structure IsPointOf (p : Provider) (t : Timeouts) (uri : String) (target : LookupTarget)
    (point : QueryPoint) : Prop where
  position : p.positionOf t uri target = some point.position
  symbol : point.symbol = none → ∃ q, target = .position q

/-- A name stands for the first symbol that has it. -/
theorem positionOf_of_resolveIn {p : Provider} {t : Timeouts} {uri name : String}
    {hint : Option Position} {s : Symbol}
    (h : (resolveIn (p.forest t.symbols uri) (.name name hint)).symbol? = some s) :
    p.positionOf t uri (.name name hint) = some s.anchor := by
  rw [symbol?_resolveIn_name] at h
  rw [Provider.positionOf, h]
  rfl

theorem within_queryPoint (t : Timeouts) (uri : String) (target : LookupTarget) :
    Within w (naming t target) (queryPoint t uri target)
      fun r => ∀ point, r = some point → IsPointOf w.provider t uri target point := by
  cases target with
  | position q =>
    refine .pure fun point h => ?_
    cases h
    exact ⟨rfl, fun _ => ⟨q, rfl⟩⟩
  | name name hint =>
    refine (within_resolveTarget t.symbols uri _).bind (k := 0) fun r hr => ?_
    obtain ⟨hsound, hr⟩ := hr
    refine (within_accept _ r).bind (k := 0) fun s hs => .pure fun point hpoint => ?_
    obtain ⟨s', hs', rfl⟩ := Option.map_eq_some_iff.mp hpoint
    -- there is a point only if a symbol was found, and it is the anchor of that symbol
    rw [hsound.accepted_eq, hs'] at hs
    refine ⟨positionOf_of_resolveIn (hr _ hs.symm), ?_⟩
    intro hnone
    cases hnone

/-! ## Lookups -/

theorem within_degrade (kind : TableKind) (fault : CallFault) :
    Within w 0 (degrade kind fault) fun _ => True :=
  (Within.warn _).map

theorem within_locationsAt (c : Config) (query : LocationQuery) (uri : String)
    (target : LookupTarget) :
    Within w (naming c.timeouts target + (locationDeadline c.timeouts query
        + c.timeouts.preview
          * (shownDocuments c.output query (w.provider.places c.timeouts query uri target)).card))
      (locationsAt c query uri target) fun _ => True := by
  refine (within_queryPoint c.timeouts uri target).bind ?_
  rintro (_ | point) hpoint
  · exact .pure trivial
  · refine (Within.ask _ (.locations query uri point.position)).bind fun a ha => ?_
    cases hreply : Answer.reply query.label a with
    | error fault => exact (within_degrade _ fault).weaken (Nat.zero_le _) fun _ h => h
    | ok found =>
      -- the places whose documents are read are those that the provider lists in time
      have hplaces : w.provider.places c.timeouts query uri target = found := by
        simp only [Provider.places, (hpoint point rfl).position, ha _ (eq_of_reply_ok hreply),
          Answer.listed]
      rw [hplaces]
      exact (within_previews _ found _).map

theorem within_hoverAt (c : Config) (uri : String) (target : LookupTarget) :
    Within w (naming c.timeouts target + (c.timeouts.hover + wording c.timeouts target))
      (hoverAt c uri target) fun _ => True := by
  refine (within_queryPoint c.timeouts uri target).bind ?_
  rintro (_ | point) hpoint
  · exact .pure trivial
  · refine (Within.ask _ (.hover uri point.position)).bind fun a _ => ?_
    rcases Answer.reply "hover" a with (fault | (_ | h))
    · exact (within_degrade _ fault).weaken (Nat.zero_le _) fun _ h => h
    · exact .pure trivial
    · cases hsymbol : point.symbol with
      | some s => exact (Within.pure (Q := fun _ => True) trivial).map
      | none =>
        -- without a symbol the target is a position, and the word is read there
        obtain ⟨q, rfl⟩ := (hpoint point rfl).symbol hsymbol
        refine (within_wordAt _ uri _).bind (k := 0) fun _ _ => ?_
        exact (Within.pure (Q := fun _ => True) trivial).map

theorem within_hoverText (c : Config) (uri : String) (p : Position) :
    Within w c.timeouts.hover (hoverText c uri p) fun _ => True := by
  refine (Within.ask _ _).bind (k := 0) ?_
  rintro ((_ | _) | (_ | (_ | _))) _ <;> exact .pure trivial

/-- How many symbols of a document a table shows. -/
def shownSymbols (c : Config) (p : Provider) (uri : String) : Nat :=
  min (Symbol.walk (p.forest c.timeouts.symbols uri)).length c.output.maxRows

/-- Hover texts are asked for in windows of eight, and only for symbols that are shown. -/
theorem within_documentSymbolsIn (c : Config) (uri : String) :
    Within w (c.timeouts.symbols + c.timeouts.hover * ((shownSymbols c w.provider uri + 7) / 8))
      (documentSymbolsIn c uri) fun _ => True := by
  refine (within_fetchSymbols c.timeouts.symbols uri).bind ?_
  rintro (fault | forest) hforest
  · exact (within_degrade _ fault).weaken (Nat.zero_le _) fun _ h => h
  · -- the symbols are the ones that the provider lists in time
    rw [shownSymbols, hforest forest rfl]
    have hhover : ∀ e : Symbol × Option Symbol,
        Within w c.timeouts.hover (hoverText c uri e.1.anchor) fun _ => True :=
      fun e => within_hoverText c uri e.1.anchor
    have hwidth : 0 < hoverWidth := by decide
    have hwindow := Within.window hwidth hhover ((Symbol.walk forest).take c.output.maxRows)
    rw [List.length_take, Nat.min_comm] at hwindow
    exact hwindow.map

theorem within_documentSymbols (c : Config) (uri : String) :
    Within w (c.timeouts.symbols + c.timeouts.hover * ((shownSymbols c w.provider uri + 7) / 8))
      (documentSymbols c uri) fun _ => True := by
  rw [documentSymbols]
  by_cases hblank : Text.isBlankText uri
  · rw [if_pos hblank]
    exact .pure trivial
  · rw [if_neg hblank]
    exact (within_documentSymbolsIn c uri).map

theorem within_childrenOf (c : Config) (uri : String) (depth : ChildDepth)
    (target : LookupTarget) :
    Within w c.timeouts.symbols (childrenOf c uri depth target) fun _ => True := by
  refine (within_resolveTarget c.timeouts.symbols uri target).bind (k := 0) fun r _ => ?_
  refine (within_accept target r).bind (k := 0) ?_
  rintro (_ | _) _ <;> exact .pure trivial

theorem within_branch (t : Timeouts) (kind : HierarchyKind) (root : HierarchyItem)
    (direction : Direction) :
    Within w (branchDeadline t kind) (branch t kind root direction) fun _ => True := by
  refine (Within.ask _ _).bind (k := 0) fun a _ => ?_
  cases Answer.reply (branchOperation kind direction) a with
  | ok edges => exact .pure trivial
  | error fault => exact (Within.warn _).map

/-- Both sides of a hierarchy together take one deadline. -/
theorem within_traverse (t : Timeouts) (uri : String) (p : Position) (kind : HierarchyKind) :
    Within w (prepareDeadline t kind + branchDeadline t kind) (traverse t uri p kind)
      fun _ => True := by
  refine (Within.ask _ _).bind fun a _ => ?_
  rcases Answer.reply (prepareOperation kind) a with (fault | roots)
  · cases fault <;> exact (Within.warn _).map
  · cases roots with
    | nil => exact .pure trivial
    | cons root _ =>
      -- the sides begin together, so their deadlines do not add up
      exact ((within_branch t kind root .incoming).both
        (within_branch t kind root .outgoing)).map

theorem within_hierarchyAt (c : Config) (kind : HierarchyKind) (uri : String)
    (target : LookupTarget) :
    Within w (naming c.timeouts target
        + (prepareDeadline c.timeouts kind + branchDeadline c.timeouts kind))
      (hierarchyAt c kind uri target) fun _ => True := by
  refine (within_queryPoint c.timeouts uri target).bind ?_
  rintro (_ | point) _
  · exact .pure trivial
  · refine (within_traverse c.timeouts uri point.position kind).bind (k := 0) ?_
    rintro (_ | _) _ <;> exact .pure trivial

/-! ## What a lookup may take -/

/-- A time that depends on the target of a request. A malformed request takes none. -/
def onTarget (request : LookupRequest) (time : LookupTarget → Nat) : Nat :=
  match request.target with
  | .ok target => time target
  | .error _ => 0

theorem within_withTarget {α : Type} (request : LookupRequest) {f : LookupTarget → Timed α}
    {time : LookupTarget → Nat}
    (h : ∀ target, Within w (time target) (f target) fun _ => True) :
    Within w (onTarget request time) (withTarget request f) fun _ => True := by
  rw [withTarget, onTarget]
  cases request.target with
  | error e => exact .pure trivial
  | ok target => exact (h target).map

theorem resolve_eq_withTarget {m : Type → Type} [Asking m] (deadline : Nat)
    (request : LookupRequest) :
    (resolve deadline request : m _)
      = withTarget request (resolveTarget deadline request.uri) := by
  unfold resolve withTarget
  cases request.target <;> rfl

/-- The time that a lookup may take: the deadlines of the questions that wait for each other. -/
def Inquiry.allowance (c : Config) (p : Provider) : Inquiry → Nat
  | .resolve request => onTarget request fun _ => c.timeouts.symbols
  | .children request _ => onTarget request fun _ => c.timeouts.symbols
  | .hover request => onTarget request fun target =>
    naming c.timeouts target + (c.timeouts.hover + wording c.timeouts target)
  | .locations query request => onTarget request fun target =>
    naming c.timeouts target + (locationDeadline c.timeouts query
      + c.timeouts.preview
        * (shownDocuments c.output query (p.places c.timeouts query request.uri target)).card)
  | .hierarchy kind request => onTarget request fun target =>
    naming c.timeouts target + (prepareDeadline c.timeouts kind + branchDeadline c.timeouts kind)
  | .documentSymbols uri =>
    c.timeouts.symbols + c.timeouts.hover * ((shownSymbols c p uri + 7) / 8)

/-- **A lookup takes no longer than its allowance**, whatever the provider does, also if it never
answers, and whenever the lookup is cancelled. -/
theorem elapsed_le_allowance (c : Config) (i : Inquiry) (w : World) (t : Nat) :
    ((i.answer c : Timed (Except MalformedInput Finding)) w t).finish
      ≤ t + i.allowance c w.provider := by
  have hanswer : Within w (i.allowance c w.provider) (i.answer c) fun _ => True := by
    cases i with
    | resolve request =>
      rw [Inquiry.answer, resolve_eq_withTarget]
      exact (within_withTarget request fun target =>
        (within_resolveTarget _ request.uri target).time).map
    | documentSymbols uri => exact (within_documentSymbols c uri).map
    | locations query request =>
      exact (within_withTarget request (within_locationsAt c query request.uri)).map
    | hover request => exact (within_withTarget request (within_hoverAt c request.uri)).map
    | children request depth =>
      exact (within_withTarget request (within_childrenOf c request.uri _)).map
    | hierarchy kind request =>
      exact (within_withTarget request (within_hierarchyAt c kind request.uri)).map
  exact (hanswer t).1

end Lookup

end SymbolQuery
