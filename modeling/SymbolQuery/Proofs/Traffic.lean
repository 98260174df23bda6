/-
What a lookup asks of a provider, and how often.

`Course` tells for each lookup which questions it comes to, in their order, in terms of
the replies that it hears: a target is found first if it is named, then the question is
put that the lookup is about, and what is asked behind that depends on its reply. Every
conversation of a lookup follows its course, whatever is answered and whenever it is
cancelled. So a lookup asks little: a failed question is not asked again, a document is
read once, a hover text is asked for each symbol that is shown, and a hierarchy does not
go beyond the neighbours of its root, also where a neighbour is the root itself.
-/
import Mathlib.Data.List.Nodup
import SymbolQuery.Proofs.Conversations
import SymbolQuery.Proofs.EmptyAnswers

set_option autoImplicit false

namespace SymbolQuery

/-! ## Topics -/

/-- What a question is about. -/
inductive Topic
  | symbols
  | document
  | locations
  | hover
  | prepare
  | neighbours (direction : Direction)
  deriving DecidableEq

/-- The topic of a question. -/
def Question.topic : Question → Topic
  | .symbols _ => .symbols
  | .document _ => .document
  | .locations _ _ _ => .locations
  | .hover _ _ => .hover
  | .prepare _ _ _ => .prepare
  | .neighbours _ direction _ => .neighbours direction

/-- The document that is to be read. -/
def Question.document? : Question → Option String
  | .document uri => some uri
  | _ => none

namespace Conversation

/-- How often the provider was asked about a topic. -/
def times (topic : Topic) (said : Conversation) : Nat :=
  ((put said).map Question.topic).count topic

/-- The documents that were read. -/
def documentsRead (said : Conversation) : List String := (put said).filterMap Question.document?

theorem times_le (topic : Topic) (said : Conversation) :
    times topic said ≤ ((questions said).map Question.topic).count topic :=
  ((put_sublist said).map Question.topic).count_le topic

theorem documentsRead_sublist (said : Conversation) :
    (documentsRead said).Sublist ((questions said).filterMap Question.document?) :=
  (put_sublist said).filterMap _

/-- What was replied to was asked. -/
theorem Replied.mem_questions {said : Conversation} {q : Question} {reply : q.Reply}
    (h : Replied said q reply) : q ∈ questions said := List.mem_map_of_mem h

/-- What was not asked was not replied to. -/
theorem not_replied {said : Conversation} {q : Question} (h : q ∉ questions said)
    (reply : q.Reply) : ¬ Replied said q reply := fun hreplied => h hreplied.mem_questions

theorem Replied.append {said : Conversation} {q : Question} {reply : q.Reply}
    (h : Replied said q reply) (more : Conversation) : Replied (said ++ more) q reply :=
  List.mem_append_left more h

theorem Replied.after {said : Conversation} {q : Question} {reply : q.Reply}
    (h : Replied said q reply) (first : Conversation) : Replied (first ++ said) q reply :=
  List.mem_append_right first h

end Conversation

open Conversation

/-- Whatever operation asks a question: it has a reply exactly if the provider gave it. -/
theorem Talk.Says.question (deadline : Nat) (q : Question) :
    Talk.Says (Asking.ask deadline q) fun said a =>
      questions said = [q] ∧
        ∀ operation reply, Replied said q reply ↔ Answer.reply operation a = .ok reply := by
  refine .ask (fun a => ⟨rfl, fun operation reply => ?_⟩) ⟨rfl, fun operation reply => ?_⟩
  · rw [Replied, List.mem_singleton, Exchange.asked.injEq, heq_eq_eq]
    rcases a with (_ | _) | (_ | _) <;> simp [Answer.reply, eq_comm]
  · rw [Replied, List.mem_singleton]
    constructor <;> rintro ⟨⟩

/-- A warning is not said to the provider. -/
theorem Talk.Says.warned {α : Type} (warning : Warning) (a : α) :
    Talk.Says (do Asking.warn warning; return a) fun said b => said = [] ∧ b = a :=
  (Talk.Says.warn (R := fun said _ => said = []) rfl).bind fun _ _ hfirst =>
    .pure ⟨by rw [hfirst]; rfl, rfl⟩

namespace Lookup

/-! ## The course of a lookup -/

/-- Where a target is, by what was replied: a position is taken as it is, and a name is that of the
first symbol so called. -/
inductive Located (said : Conversation) (uri : String) : LookupTarget → Position → Prop
  | position (p : Position) : Located said uri (.position p) p
  | name {name : String} {hint : Option Position} {forest others : List Symbol} {s : Symbol}
      (hforest : Replied said (.symbols uri) forest)
      (hnamed : Symbol.named forest name = s :: others) :
      Located said uri (.name name hint) s.anchor

/-- What is asked to find a target. -/
def finding (uri : String) : LookupTarget → List Question
  | .position _ => []
  | .name _ _ => [.symbols uri]

/-- The hover texts that are asked for: one for each symbol that is shown. -/
def hovers (c : Config) (uri : String) (forest : List Symbol) : List Question :=
  ((Symbol.walk forest).take (min (Symbol.walk forest).length c.output.maxRows)).map fun e =>
    .hover uri e.1.selectionRange.start

theorem hovers_eq_flatMap (c : Config) (uri : String) (forest : List Symbol) :
    hovers c uri forest
      = ((Symbol.walk forest).take c.output.maxRows).flatMap fun e => [.hover uri e.1.anchor] := by
  rw [hovers, Nat.min_comm, ← List.take_eq_take_min, List.map_eq_flatMap]
  rfl

/-- The documents of the places that are shown. -/
def shownIn (c : Config) (query : LocationQuery) (found : List Location) : List String :=
  (found.take (Table.visibleRows c.output found.length (isSampled query))).map Location.uri

/-- The symbols that were replied, or none. -/
structure IsForest (said : Conversation) (uri : String) (forest : List Symbol) : Prop where
  replied : ∀ f, Replied said (.symbols uri) f → f = forest
  none : (∀ f, ¬ Replied said (.symbols uri) f) → forest = []

/-- **The course of a lookup**: the questions that it comes to. -/
inductive Course (c : Config) (said : Conversation) : Inquiry → List Question → Prop
  /-- Nothing is asked for a malformed lookup. -/
  | refused {i : Inquiry} {e : MalformedInput} (h : i.Malformed e) : Course c said i []
  /-- The target is not found, and nothing else is asked. -/
  | lost {i : Inquiry} {request : LookupRequest} {target : LookupTarget}
      (hrequest : i.request? = some request) (htarget : request.target = .ok target)
      (hnone : ∀ p, ¬ Located said request.uri target p) :
      Course c said i (finding request.uri target)
  | resolve (request : LookupRequest) : Course c said (.resolve request) [.symbols request.uri]
  | children (request : LookupRequest) (depth : Option ChildDepth) :
      Course c said (.children request depth) [.symbols request.uri]
  | documentSymbols {uri : String} (forest : List Symbol) (hforest : IsForest said uri forest) :
      Course c said (.documentSymbols uri) (.symbols uri :: hovers c uri forest)
  | locations {query : LocationQuery} {request : LookupRequest} {target : LookupTarget}
      {p : Position} (documents : List String) (htarget : request.target = .ok target)
      (hlocated : Located said request.uri target p) (hnodup : documents.Nodup)
      (hshown : ∀ d ∈ documents, ∃ found,
        Replied said (.locations query request.uri p) found ∧ d ∈ shownIn c query found) :
      Course c said (.locations query request)
        (finding request.uri target ++ .locations query request.uri p
          :: documents.map .document)
  | hover {request : LookupRequest} {target : LookupTarget} {p : Position}
      (documents : List String) (htarget : request.target = .ok target)
      (hlocated : Located said request.uri target p)
      (hread : documents = [] ∨ documents = [request.uri] ∧ target = .position p) :
      Course c said (.hover request)
        (finding request.uri target ++ .hover request.uri p :: documents.map .document)
  | hierarchy {kind : HierarchyKind} {request : LookupRequest} {target : LookupTarget}
      {p : Position} {branches : List Question} (htarget : request.target = .ok target)
      (hlocated : Located said request.uri target p)
      (hbranches : branches = [] ∨ ∃ root others,
        Replied said (.prepare kind request.uri p) (root :: others)
          ∧ branches = [.neighbours kind .incoming root, .neighbours kind .outgoing root]) :
      Course c said (.hierarchy kind request)
        (finding request.uri target ++ .prepare kind request.uri p :: branches)

theorem Located.append {said : Conversation} {uri : String} {target : LookupTarget} {p : Position}
    (h : Located said uri target p) (more : Conversation) :
    Located (said ++ more) uri target p := by
  cases h with
  | position p => exact .position p
  | name hforest hnamed => exact .name (hforest.append more) hnamed

/-! ## What the parts of a lookup say -/

variable {c : Config} {t : Timeouts} {deadline : Nat} {uri : String}

theorem says_document (uri : String) :
    Talk.Says (document deadline uri) fun said _ => questions said = [.document uri] := by
  refine (Talk.Says.question deadline _).bind ?_
  rintro first a ⟨hfirst, _⟩
  rcases a with (_ | _) | (_ | _) <;> exact .pure (by rw [List.append_nil, hfirst])

/-- A document is read unless it was read before, and then it counts as read. -/
theorem says_previewsFrom (read : List (String × Option String)) (ls : List Location) :
    Talk.Says (previewsFrom deadline read ls) fun said _ =>
      ∃ documents : List String, questions said = documents.map .document ∧ documents.Nodup
        ∧ ∀ d ∈ documents, d ∈ ls.map Location.uri ∧ read.lookup d = none := by
  induction ls generalizing read with
  | nil => exact .pure ⟨[], rfl, List.nodup_nil, List.forall_mem_nil _⟩
  | cons l rest ih =>
    rw [previewsFrom]
    cases hl : read.lookup l.uri with
    | some text =>
      refine .map ((ih read).weaken ?_)
      rintro said _ ⟨documents, hsaid, hnodup, hnew⟩
      exact ⟨documents, hsaid, hnodup, fun d hd =>
        ⟨List.mem_cons_of_mem _ (hnew d hd).1, (hnew d hd).2⟩⟩
    | none =>
      refine (says_document l.uri).bind fun first text hfirst => ?_
      refine .map ((ih ((l.uri, text) :: read)).weaken ?_)
      rintro said _ ⟨documents, hsaid, hnodup, hnew⟩
      -- what is read later is not what was read here
      have hother : ∀ d ∈ documents, d ≠ l.uri ∧ read.lookup d = none := by
        intro d hd
        have hlookup := (hnew d hd).2
        rw [List.lookup_cons] at hlookup
        by_cases heq : d = l.uri
        · rw [beq_iff_eq.mpr heq] at hlookup
          cases hlookup
        · rw [beq_eq_false_iff_ne.mpr heq] at hlookup
          exact ⟨heq, hlookup⟩
      refine ⟨l.uri :: documents, ?_, ?_, ?_⟩
      · rw [questions_append, hfirst, hsaid]
        rfl
      · exact List.nodup_cons.mpr ⟨fun hmem => (hother _ hmem).1 rfl, hnodup⟩
      · exact List.forall_mem_cons.mpr ⟨⟨List.mem_cons_self, hl⟩, fun d hd =>
          ⟨List.mem_cons_of_mem _ (hnew d hd).1, (hother d hd).2⟩⟩

theorem says_previews (ls : List Location) (limit : Nat) :
    Talk.Says (previews deadline ls limit) fun said _ =>
      ∃ documents : List String, questions said = documents.map .document ∧ documents.Nodup
        ∧ ∀ d ∈ documents, d ∈ (ls.take limit).map Location.uri := by
  refine .map ((says_previewsFrom [] _).weaken ?_)
  rintro said _ ⟨documents, hsaid, hnodup, hnew⟩
  exact ⟨documents, hsaid, hnodup, fun d hd => (hnew d hd).1⟩

theorem says_wordAt (p : Position) :
    Talk.Says (wordAt deadline uri p) fun said _ => questions said = [.document uri] := by
  refine (says_document uri).bind ?_
  rintro first (_ | text) hfirst <;> exact .pure (by rw [List.append_nil, hfirst])

theorem says_fetchSymbols :
    Talk.Says (fetchSymbols deadline uri) fun said r =>
      questions said = [.symbols uri]
        ∧ ∀ forest, Replied said (.symbols uri) forest ↔ r = .ok forest :=
  .map ((Talk.Says.question deadline _).weaken fun _ _ h => ⟨h.1, h.2 _⟩)

/-- The symbols are asked for also where the target is a position. -/
theorem says_resolveTarget (target : LookupTarget) :
    Talk.Says (resolveTarget deadline uri target) fun said r =>
      questions said = [.symbols uri]
        ∧ r.Sound
        ∧ ((∃ forest, (∀ f, Replied said (.symbols uri) f ↔ forest = f)
              ∧ r = resolveIn forest target)
          ∨ (∀ f, ¬ Replied said (.symbols uri) f) ∧ ∃ fault, r = .failed fault) := by
  refine says_fetchSymbols.bind ?_
  rintro first (fault | forest) ⟨hfirst, hreplied⟩
  · refine .pure ⟨by rw [List.append_nil, hfirst], Resolution.sound_failed _,
      .inr ⟨fun f hf => ?_, _, rfl⟩⟩
    rw [List.append_nil] at hf
    cases (hreplied f).mp hf
  · refine .pure ⟨by rw [List.append_nil, hfirst], sound_resolveIn _ _,
      .inl ⟨forest, fun f => ?_, rfl⟩⟩
    rw [List.append_nil, hreplied f, Except.ok.injEq]

theorem says_accept (target : LookupTarget) (r : Resolution) :
    Talk.Says (accept target r) fun said s => said = [] ∧ s = r.accepted := by
  unfold accept Resolution.accepted
  cases r.error? with
  | some text => exact .warned _ _
  | none =>
    cases target with
    | position p => exact .pure ⟨rfl, rfl⟩
    | name name hint =>
      dsimp only
      split
      · exact .pure ⟨rfl, rfl⟩
      · exact .warned _ _

/-- A point is found exactly if the target is located. -/
theorem says_queryPoint (target : LookupTarget) :
    Talk.Says (queryPoint t uri target) fun said point =>
      questions said = finding uri target
        ∧ (∀ q, point = some q → Located said uri target q.position
            ∧ (q.symbol = none → target = .position q.position))
        ∧ (point = none → ∀ p, ¬ Located said uri target p) := by
  cases target with
  | position p =>
    refine .pure ⟨rfl, ?_, ?_⟩
    · rintro q ⟨⟩
      exact ⟨.position p, fun _ => rfl⟩
    · intro hnone
      cases hnone
  | name name hint =>
    refine (says_resolveTarget _).bind fun first r hr => ?_
    obtain ⟨hfirst, hsound, hr⟩ := hr
    refine (says_accept _ r).bind ?_
    rintro _ s ⟨rfl, rfl⟩
    refine .pure ⟨by rw [List.append_nil, List.append_nil, hfirst]; rfl, ?_⟩
    rw [List.append_nil, List.append_nil, hsound.accepted_eq]
    obtain ⟨forest, hforest, rfl⟩ | ⟨hnone, fault, rfl⟩ := hr
    · rw [symbol?_resolveIn_name]
      cases hnamed : Symbol.named forest name with
      | nil =>
        refine ⟨fun q hq => (by cases hq), ?_⟩
        rintro _ _ (_ | ⟨hforest', hnamed'⟩)
        rw [← (hforest _).mp hforest', hnamed] at hnamed'
        cases hnamed'
      | cons s others =>
        refine ⟨?_, fun hnone => (by cases hnone)⟩
        rintro _ ⟨⟩
        exact ⟨.name ((hforest _).mpr rfl) hnamed, fun hnone => (by cases hnone)⟩
    · refine ⟨fun q hq => (by cases hq), ?_⟩
      rintro _ _ (_ | ⟨hforest, _⟩)
      exact hnone _ hforest

theorem says_degrade (kind : TableKind) (fault : CallFault) :
    Talk.Says (degrade kind fault) fun said _ => said = [] :=
  (Talk.Says.warned _ _).weaken fun _ _ => And.left

theorem says_hoverText (p : Position) :
    Talk.Says (hoverText c uri p) fun said _ => questions said = [.hover uri p] := by
  refine (Talk.Says.question _ _).bind ?_
  rintro first a ⟨hfirst, _⟩
  rcases a with (_ | _) | (_ | (_ | _)) <;> exact .pure (by rw [List.append_nil, hfirst])

theorem says_branch (kind : HierarchyKind) (root : HierarchyItem) (direction : Direction) :
    Talk.Says (branch t kind root direction) fun said _ =>
      questions said = [.neighbours kind direction root] := by
  refine (Talk.Says.question _ _).bind ?_
  rintro first a ⟨hfirst, _⟩
  cases Answer.reply (branchOperation kind direction) a with
  | ok edges => exact .pure (by rw [List.append_nil, hfirst])
  | error fault =>
    refine (Talk.Says.warned _ _).weaken ?_
    rintro _ _ ⟨rfl, -⟩
    rw [List.append_nil, hfirst]

/-- Behind the first prepared item nothing is asked but its two sides. -/
theorem says_traverse (p : Position) (kind : HierarchyKind) :
    Talk.Says (traverse t uri p kind) fun said _ =>
      ∃ branches, questions said = .prepare kind uri p :: branches
        ∧ (branches = [] ∨ ∃ root others, Replied said (.prepare kind uri p) (root :: others)
          ∧ branches = [.neighbours kind .incoming root, .neighbours kind .outgoing root]) := by
  refine (Talk.Says.question _ _).bind ?_
  rintro first a ⟨hfirst, hreplied⟩
  cases hreply : Answer.reply (prepareOperation kind) a with
  | error fault =>
    cases fault <;> refine (Talk.Says.warned _ _).weaken ?_ <;> rintro _ _ ⟨rfl, -⟩ <;>
      exact ⟨[], by rw [List.append_nil, hfirst], .inl rfl⟩
  | ok roots =>
    cases roots with
    | nil => exact .pure ⟨[], by rw [List.append_nil, hfirst], .inl rfl⟩
    | cons root others =>
      refine .map (((says_branch kind root .incoming).both (says_branch kind root .outgoing)).weaken
        ?_)
      rintro _ r ⟨left, right, hleft, hright, rfl⟩
      refine ⟨[.neighbours kind .incoming root, .neighbours kind .outgoing root], ?_, .inr
        ⟨root, others, ((hreplied _ _).mpr hreply).append _, rfl⟩⟩
      rw [questions_append, questions_append, hfirst, hleft, hright]
      rfl

/-! ## Every conversation follows its course -/

variable {request : LookupRequest} {target : LookupTarget}

/-- Where nothing is found to ask about, nothing more is asked. -/
theorem says_lost {α : Type} {i : Inquiry} {first : Conversation} {a : α}
    (hrequest : i.request? = some request) (htarget : request.target = .ok target)
    (hfirst : questions first = finding request.uri target)
    (hnone : ∀ p, ¬ Located first request.uri target p) :
    Talk.Says (Pure.pure a : Talk α) fun more _ =>
      Course c (first ++ more) i (questions (first ++ more)) := by
  refine .pure ?_
  rw [List.append_nil, hfirst]
  exact .lost hrequest htarget hnone

theorem says_locationsAt (query : LocationQuery) (htarget : request.target = .ok target) :
    Talk.Says (locationsAt c query request.uri target) fun said _ =>
      Course c said (.locations query request) (questions said) := by
  refine (says_queryPoint target).bind ?_
  rintro first (_ | point) ⟨hfirst, hfound, hnone⟩
  · exact says_lost rfl htarget hfirst (hnone rfl)
  · have hlocated := (hfound point rfl).1
    refine (Talk.Says.question _ _).bind ?_
    rintro main a ⟨hmain, hreplied⟩
    cases hreply : Answer.reply query.label a with
    | error fault =>
      -- nothing is shown, so no document is read
      refine (says_degrade _ fault).weaken ?_
      rintro _ _ rfl
      rw [List.append_nil, questions_append, hfirst, hmain]
      exact .locations [] htarget (hlocated.append _) List.nodup_nil
        (List.forall_mem_nil _)
    | ok found =>
      refine .map ((says_previews found _).weaken ?_)
      rintro more _ ⟨documents, hmore, hnodup, hshown⟩
      rw [questions_append, questions_append, hfirst, hmain, hmore]
      exact .locations documents htarget (hlocated.append _) hnodup fun d hd =>
        ⟨found, (((hreplied _ _).mpr hreply).append more).after first, hshown d hd⟩

theorem says_hoverAt (htarget : request.target = .ok target) :
    Talk.Says (hoverAt c request.uri target) fun said _ =>
      Course c said (.hover request) (questions said) := by
  refine (says_queryPoint target).bind ?_
  rintro first (_ | point) ⟨hfirst, hfound, hnone⟩
  · exact says_lost rfl htarget hfirst (hnone rfl)
  · obtain ⟨hlocated, hpoint⟩ := hfound point rfl
    refine (Talk.Says.question _ _).bind ?_
    rintro main a ⟨hmain, -⟩
    -- the document is not read, whatever the reply, unless there is a text and no name for it
    have hunread : Course c (first ++ main) (.hover request) (questions (first ++ main)) := by
      rw [questions_append, hfirst, hmain]
      exact .hover [] htarget (hlocated.append _) (.inl rfl)
    have hquiet : ∀ t : Table, Talk.Says (Pure.pure t : Talk Table) fun more _ =>
        Course c (first ++ (main ++ more)) (.hover request) (questions (first ++ (main ++ more))) :=
      fun t => .pure (by rw [List.append_nil]; exact hunread)
    rcases Answer.reply "hover" a with (fault | (_ | h))
    · refine (says_degrade _ fault).weaken ?_
      rintro _ _ rfl
      rw [List.append_nil]
      exact hunread
    · exact hquiet _
    · cases hsymbol : point.symbol with
      | some s =>
        refine .bind (P := fun said _ => said = []) (.pure rfl) ?_
        rintro _ _ rfl
        exact hquiet _
      | none =>
        refine (says_wordAt point.position).bind fun word a hword => ?_
        refine .bind (P := fun said _ => said = []) (.pure rfl) ?_
        rintro _ _ rfl
        refine .pure ?_
        rw [List.append_nil, List.append_nil, questions_append, questions_append, hfirst, hmain,
          hword]
        exact .hover [request.uri] htarget (hlocated.append _)
          (.inr ⟨rfl, hpoint hsymbol⟩)

theorem says_documentSymbolsIn :
    Talk.Says (documentSymbolsIn c uri) fun said _ =>
      Course c said (.documentSymbols uri) (questions said) := by
  refine says_fetchSymbols.bind ?_
  rintro first (fault | forest) ⟨hfirst, hreplied⟩
  · refine (says_degrade _ fault).weaken ?_
    rintro _ _ rfl
    rw [List.append_nil, hfirst]
    refine .documentSymbols [] ⟨fun f hf => ?_, fun _ => rfl⟩
    cases (hreplied f).mp hf
  · have hhover : ∀ e : Symbol × Option Symbol, Talk.Says (hoverText c uri e.1.anchor)
        fun said _ => questions said = [.hover uri e.1.anchor] := fun e => says_hoverText e.1.anchor
    have hhovers := Talk.Says.window hoverWidth hhover ((Symbol.walk forest).take c.output.maxRows)
    refine .map (hhovers.weaken fun more _ hmore => ?_)
    rw [questions_append, hfirst, hmore, ← hovers_eq_flatMap]
    refine .documentSymbols forest ⟨fun f hf => ?_, fun hnone => ?_⟩
    · rcases List.mem_append.mp hf with hf | hf
      · exact (Except.ok.inj ((hreplied f).mp hf)).symm
      · -- what is asked behind the symbols are hover texts
        refine absurd hf (not_replied ?_ f)
        rw [hmore]
        simp
    · exact absurd (((hreplied forest).mpr rfl).append more) (hnone forest)

/-- A lookup of a target follows its course if it does so for each target. -/
theorem says_withTarget {α β : Type} {i : Inquiry} (hrequest : i.request? = some request)
    {f : LookupTarget → Talk α} {g : Except MalformedInput α → β}
    (h : ∀ target, request.target = .ok target →
      Talk.Says (f target) fun said _ => Course c said i (questions said)) :
    Talk.Says (withTarget request f >>= fun a => Pure.pure (g a)) fun said _ =>
      Course c said i (questions said) := by
  refine .map ?_
  rw [withTarget]
  cases htarget : request.target with
  | error e =>
    exact .pure (.refused ((Inquiry.malformed_iff_of_request hrequest e).mpr htarget))
  | ok target => exact .map (h target htarget)

theorem says_childrenOf (depth : ChildDepth) (given : Option ChildDepth) :
    Talk.Says (childrenOf c request.uri depth target) fun said _ =>
      Course c said (.children request given) (questions said) := by
  refine (says_resolveTarget target).bind fun first r hr => ?_
  refine (says_accept target r).bind ?_
  rintro _ (_ | s) ⟨rfl, -⟩ <;>
    exact .pure (by rw [List.append_nil, List.append_nil, hr.1]; exact .children request given)

theorem says_hierarchyAt (kind : HierarchyKind) (htarget : request.target = .ok target) :
    Talk.Says (hierarchyAt c kind request.uri target) fun said _ =>
      Course c said (.hierarchy kind request) (questions said) := by
  refine (says_queryPoint target).bind ?_
  rintro first (_ | point) ⟨hfirst, hfound, hnone⟩
  · exact says_lost rfl htarget hfirst (hnone rfl)
  · refine (says_traverse point.position kind).bind ?_
    rintro more r ⟨branches, hmore, hbranches⟩
    have hcourse : Course c (first ++ more) (.hierarchy kind request)
        (questions (first ++ more)) := by
      rw [questions_append, hfirst, hmore]
      refine .hierarchy htarget ((hfound point rfl).1.append more) ?_
      refine hbranches.imp id ?_
      rintro ⟨root, others, hroot, hbranches⟩
      exact ⟨root, others, hroot.after first, hbranches⟩
    cases r <;> exact .pure (by rw [List.append_nil]; exact hcourse)

/-- **Every conversation of a lookup follows its course.** -/
theorem says_answer (c : Config) (i : Inquiry) :
    Talk.Says (i.answer c) fun said _ => Course c said i (questions said) := by
  cases i with
  | resolve request =>
    refine .map ?_
    rw [Lookup.resolve]
    cases htarget : request.target with
    | error e => exact .pure (.refused ((Inquiry.malformed_iff_of_request rfl e).mpr htarget))
    | ok target =>
      refine .map ((says_resolveTarget target).weaken ?_)
      rintro said _ ⟨hsaid, -⟩
      rw [hsaid]
      exact .resolve request
  | documentSymbols uri =>
    refine .map ?_
    rw [documentSymbols]
    by_cases hblank : Text.isBlankText uri
    · rw [if_pos hblank]
      exact .pure (.refused (.uri hblank))
    · rw [if_neg hblank]
      exact .map says_documentSymbolsIn
  | locations query request => exact says_withTarget rfl fun _ => says_locationsAt query
  | hover request => exact says_withTarget rfl fun _ => says_hoverAt
  | children request depth => exact says_withTarget rfl fun _ _ => says_childrenOf _ depth
  | hierarchy kind request => exact says_withTarget rfl fun _ => says_hierarchyAt kind

/-! ## How little is asked -/

/-- A lookup for places may read the documents of those that are shown, and a lookup of the hover
text at a position reads the document for the word there. -/
inductive Inquiry.MayRead (c : Config) (said : Conversation) : Inquiry → String → Prop
  | place {query : LocationQuery} {request : LookupRequest} {p : Position} {found : List Location}
      {d : String} (hfound : Replied said (.locations query request.uri p) found)
      (hshown : d ∈ shownIn c query found) : Inquiry.MayRead c said (.locations query request) d
  | word {request : LookupRequest} {p : Position} (htarget : request.target = .ok (.position p)) :
      Inquiry.MayRead c said (.hover request) request.uri

/-- How little a lookup asks. -/
structure Inquiry.Moderate (c : Config) (i : Inquiry) (said : Conversation) : Prop where
  /-- No question is asked again, except for documents and for the hover texts of symbols. -/
  once : ∀ topic, topic ≠ .document → (topic = .hover → ∀ uri, i ≠ .documentSymbols uri) →
    times topic said ≤ 1
  /-- No document is read again. -/
  documents : (documentsRead said).Nodup
  mayRead : ∀ d ∈ documentsRead said, i.MayRead c said d
  /-- Each shown symbol is asked for its hover text, in their order. -/
  hovers : ∀ uri, i = .documentSymbols uri → ∃ forest, IsForest said uri forest
    ∧ (put said).Sublist (.symbols uri :: hovers c uri forest)
    ∧ (Open said → Text.isBlankText uri = false →
        put said = .symbols uri :: hovers c uri forest)
  /-- A hierarchy has its root prepared at the target, if that is found. -/
  prepared : ∀ kind request target p, i = .hierarchy kind request → request.target = .ok target →
    Located said request.uri target p → Open said → times .prepare said = 1
  /-- Only the neighbours of the first prepared item are asked for. -/
  root : ∀ kind direction item, .neighbours kind direction item ∈ put said →
    ∃ request p others, i = .hierarchy kind request
      ∧ Replied said (.prepare kind request.uri p) (item :: others)

variable {i : Inquiry} {said : Conversation} {asked : List Question}

theorem topics_finding (uri : String) (target : LookupTarget) :
    (finding uri target).map Question.topic = []
      ∨ (finding uri target).map Question.topic = [.symbols] := by
  cases target with
  | position p => exact .inl rfl
  | name name hint => exact .inr rfl

theorem topics_documents (documents : List String) :
    (documents.map Question.document).map Question.topic
      = List.replicate documents.length .document := by
  rw [List.map_map]
  exact List.map_const'

/-- In a course each topic stands once, but for the documents or the hover texts at its end. -/
theorem topics_of_course (h : Course c said i asked) :
    ∃ few n again, few.Nodup ∧ asked.map Question.topic = few ++ List.replicate n again
      ∧ (again = .document ∨ again = .hover ∧ ∃ uri, i = .documentSymbols uri) := by
  cases h with
  | refused h => exact ⟨[], 0, .document, List.nodup_nil, rfl, .inl rfl⟩
  | @lost _ request target _ _ _ =>
    refine ⟨_, 0, .document, ?_, (List.append_nil _).symm, .inl rfl⟩
    rcases topics_finding request.uri target with h | h <;> rw [h] <;> decide
  | resolve request | children request depth =>
    exact ⟨[.symbols], 0, .document, by decide, rfl, .inl rfl⟩
  | @documentSymbols uri forest _ =>
    -- only here a topic other than the documents comes again
    refine ⟨[.symbols], (hovers c uri forest).length, .hover, by decide, ?_, .inr ⟨rfl, uri, rfl⟩⟩
    rw [List.map_cons, hovers, List.map_map, List.length_map]
    exact congrArg (Topic.symbols :: ·) List.map_const'
  | @locations query request target p documents _ _ _ _ =>
    refine ⟨(finding request.uri target).map Question.topic ++ [.locations], documents.length,
      .document, ?_, ?_, .inl rfl⟩
    · rcases topics_finding request.uri target with h | h <;> rw [h] <;> decide
    · rw [List.map_append, List.map_cons, topics_documents, List.append_assoc]
      rfl
  | @hover request target p documents _ _ _ =>
    refine ⟨(finding request.uri target).map Question.topic ++ [.hover], documents.length,
      .document, ?_, ?_, .inl rfl⟩
    · rcases topics_finding request.uri target with h | h <;> rw [h] <;> decide
    · rw [List.map_append, List.map_cons, topics_documents, List.append_assoc]
      rfl
  | @hierarchy kind request target p branches _ _ hbranches =>
    have hsides : branches.map Question.topic = []
        ∨ branches.map Question.topic = [.neighbours .incoming, .neighbours .outgoing] := by
      obtain rfl | ⟨root, others, _, rfl⟩ := hbranches
      · exact .inl rfl
      · exact .inr rfl
    refine ⟨(finding request.uri target).map Question.topic ++ .prepare
      :: branches.map Question.topic, 0, .document, ?_, ?_, .inl rfl⟩
    · rcases topics_finding request.uri target with h | h <;> rcases hsides with h' | h' <;>
        rw [h, h'] <;> decide
    · rw [List.map_append, List.map_cons, List.replicate_zero, List.append_nil]
      rfl

theorem times_of_course (h : Course c said i (questions said)) {topic : Topic}
    (hdocument : topic ≠ .document)
    (hhover : topic = .hover → ∀ uri, i ≠ .documentSymbols uri) : times topic said ≤ 1 := by
  obtain ⟨few, n, again, hnodup, htopics, hagain⟩ := topics_of_course h
  have hother : again ≠ topic := by
    rintro rfl
    obtain rfl | ⟨rfl, uri, hi⟩ := hagain
    · exact hdocument rfl
    · exact hhover rfl uri hi
  calc times topic said
      ≤ ((questions said).map Question.topic).count topic := times_le topic said
    _ = few.count topic := by
        rw [htopics, List.count_append, List.count_replicate, if_neg (by simpa using hother),
          Nat.add_zero]
    _ ≤ 1 := List.nodup_iff_count_le_one.mp hnodup topic

/-! ### Documents -/

theorem documents_map (documents : List String) :
    (documents.map Question.document).filterMap Question.document? = documents := by
  rw [List.filterMap_map]
  exact List.filterMap_some

theorem documents_finding (uri : String) (target : LookupTarget) :
    (finding uri target).filterMap Question.document? = [] := by
  cases target <;> rfl

/-- The documents of a course. -/
theorem documents_of_course (h : Course c said i asked) :
    ∃ documents : List String, asked.filterMap Question.document? = documents ∧ documents.Nodup
      ∧ ∀ d ∈ documents, i.MayRead c said d := by
  have hnone : asked.filterMap Question.document? = [] →
      ∃ documents : List String, asked.filterMap Question.document? = documents
        ∧ documents.Nodup ∧ ∀ d ∈ documents, i.MayRead c said d :=
    fun h => ⟨[], h, List.nodup_nil, List.forall_mem_nil _⟩
  cases h with
  | refused h | resolve request | children request depth => exact hnone rfl
  | lost hrequest htarget h => exact hnone (documents_finding _ _)
  | @documentSymbols uri forest _ =>
    refine hnone ?_
    rw [List.filterMap_cons_none rfl, hovers, List.filterMap_map]
    exact List.filterMap_eq_nil_iff.mpr fun _ _ => rfl
  | @locations query request target p documents _ _ hnodup hshown =>
    refine ⟨documents, ?_, hnodup, fun d hd => ?_⟩
    · rw [List.filterMap_append, documents_finding, List.filterMap_cons_none rfl, documents_map]
      rfl
    · obtain ⟨found, hfound, hd⟩ := hshown d hd
      exact .place hfound hd
  | @hover request target p documents htarget _ hread =>
    refine ⟨documents, ?_, ?_⟩
    · rw [List.filterMap_append, documents_finding, List.filterMap_cons_none rfl, documents_map]
      rfl
    · obtain rfl | ⟨rfl, rfl⟩ := hread
      · exact ⟨List.nodup_nil, List.forall_mem_nil _⟩
      · exact ⟨List.nodup_singleton request.uri, List.forall_mem_singleton.mpr (.word htarget)⟩
  | @hierarchy kind request target p branches _ _ hbranches =>
    refine hnone ?_
    rw [List.filterMap_append, documents_finding, List.filterMap_cons_none rfl]
    obtain rfl | ⟨root, others, _, rfl⟩ := hbranches <;> rfl

/-! ### Hover texts and hierarchies -/

theorem hovers_of_course {uri : String}
    (h : Course c said (.documentSymbols uri) (questions said)) :
    ∃ forest, IsForest said uri forest
      ∧ (put said).Sublist (.symbols uri :: hovers c uri forest)
      ∧ (Open said → Text.isBlankText uri = false →
          put said = .symbols uri :: hovers c uri forest) := by
  have hput := put_sublist said
  generalize hasked : questions said = asked at h hput
  cases h with
  | refused h =>
    refine ⟨[], ⟨fun f hf => ?_, fun _ => rfl⟩, hput.trans (List.nil_sublist _), ?_⟩
    · exact absurd hf (not_replied (by rw [hasked]; exact List.not_mem_nil) f)
    · intro _ hblank
      cases h with
      | uri h => exact absurd (hblank.symm.trans h) Bool.false_ne_true
      | request hrequest _ => cases hrequest
  | lost hrequest htarget h => cases hrequest
  | documentSymbols forest hforest =>
    exact ⟨_, hforest, hput, fun hopen _ => (put_of_open hopen).trans hasked⟩

theorem prepared_of_course {kind : HierarchyKind} {request : LookupRequest} {target : LookupTarget}
    {p : Position} (h : Course c said (.hierarchy kind request) (questions said))
    (htarget : request.target = .ok target) (hlocated : Located said request.uri target p)
    (hopen : Open said) : times .prepare said = 1 := by
  refine Nat.le_antisymm (times_of_course h (by decide) (fun h => by cases h)) ?_
  rw [times, put_of_open hopen, List.one_le_count_iff]
  generalize questions said = asked at h
  cases h with
  | refused h =>
    rw [(Inquiry.malformed_iff_of_request rfl _).mp h] at htarget
    cases htarget
  | lost hrequest htarget' hnone =>
    cases hrequest
    cases htarget.symm.trans htarget'
    exact absurd hlocated (hnone p)
  | hierarchy htarget' hlocated' hbranches =>
    -- the root is prepared in between, whatever stands before and behind
    rw [List.map_append, List.map_cons]
    exact List.mem_append_right _ List.mem_cons_self

theorem neighbours_not_mem_finding (uri : String) (target : LookupTarget) (kind : HierarchyKind)
    (direction : Direction) (item : HierarchyItem) :
    .neighbours kind direction item ∉ finding uri target := by
  cases target <;> simp [finding]

theorem root_of_course (h : Course c said i asked) {kind : HierarchyKind} {direction : Direction}
    {item : HierarchyItem} (hmem : .neighbours kind direction item ∈ asked) :
    ∃ request p others, i = .hierarchy kind request
      ∧ Replied said (.prepare kind request.uri p) (item :: others) := by
  cases h with
  | refused h => cases hmem
  | lost hrequest htarget h => exact absurd hmem (neighbours_not_mem_finding _ _ _ _ _)
  | resolve request | children request depth => cases List.mem_singleton.mp hmem
  | documentSymbols forest hforest =>
    obtain _ | ⟨_, hmem⟩ := hmem
    obtain ⟨_, _, hmem⟩ := List.mem_map.mp hmem
    cases hmem
  | locations documents htarget hlocated hnodup hshown =>
    simp [neighbours_not_mem_finding] at hmem
  | hover documents htarget hlocated hread =>
    simp [neighbours_not_mem_finding] at hmem
  | @hierarchy kind' request target p branches _ _ hbranches =>
    obtain hmem | hmem := List.mem_append.mp hmem
    · exact absurd hmem (neighbours_not_mem_finding _ _ _ _ _)
    obtain _ | ⟨_, hmem⟩ := hmem
    obtain rfl | ⟨root, others, hroot, rfl⟩ := hbranches
    · cases hmem
    -- both sides are those of the root
    obtain ⟨rfl, rfl⟩ : kind = kind' ∧ item = root := by
      rcases hmem with _ | ⟨_, _ | ⟨_, ⟨⟩⟩⟩ <;> exact ⟨rfl, rfl⟩
    exact ⟨request, p, others, rfl, hroot⟩

theorem moderate_of_course (h : Course c said i (questions said)) : i.Moderate c said := by
  obtain ⟨documents, hdocuments, hnodup, hmay⟩ := documents_of_course h
  have hread : (documentsRead said).Sublist documents := hdocuments ▸ documentsRead_sublist said
  refine ⟨fun topic => times_of_course h, hnodup.sublist hread,
    fun d hd => hmay d (hread.subset hd), ?_, ?_, ?_⟩
  · rintro uri rfl
    exact hovers_of_course h
  · rintro kind request target p rfl htarget hlocated hopen
    exact prepared_of_course h htarget hlocated hopen
  · intro kind direction item hmem
    exact root_of_course h ((put_sublist said).subset hmem)

/-- **A lookup asks little, and nothing again**, in every conversation that it may have. So whatever
the provider of a run does and whenever the run is cancelled, the calls of the run are those of a
moderate conversation. -/
theorem asks_moderately (c : Config) (i : Inquiry) :
    (∀ said found, i.MaySay c said found → i.Moderate c said)
    ∧ ∀ (w : World) (start : Nat), ∃ said, i.Moderate c said
        ∧ ((i.answer c : Timed (Except MalformedInput Finding)) w start).Is w said := by
  have hall : ∀ said found, i.MaySay c said found → i.Moderate c said :=
    fun said found hsaid => moderate_of_course (says_answer c i said found hsaid)
  refine ⟨hall, fun w start => ?_⟩
  obtain ⟨said, hsaid, his⟩ := maySay_of_run c i w start
  exact ⟨said, hall said _ hsaid, his⟩

/-- A function that calls itself. -/
def selfCalling : HierarchyItem :=
  { name := "f", kind := .function, uri := "a", range := .point ⟨0, 0⟩,
    selectionRange := .point ⟨0, 0⟩ }

/-- A provider that finds one function in a document, its own neighbour on both sides. -/
def cyclic : Provider
  | .symbols _ => ⟨some 0, .ok [Symbol.mk "f" .function (.point ⟨0, 0⟩) (.point ⟨2, 1⟩) none []]⟩
  | .prepare _ _ _ => ⟨some 0, .ok [selfCalling]⟩
  | .neighbours _ _ _ => ⟨some 0, .ok [{ counterpart := selfCalling }]⟩
  | _ => ⟨none, .error .notConnected⟩

/-- Four questions to the provider of a cycle: the walk ends where it began. -/
theorem asks_moderately_cyclic :
    let i := Inquiry.hierarchy .call (.named "a" "f")
    let run := (i.answer {} : Timed _) ⟨cyclic, none⟩ 0
    run.calls.map Prod.snd = [.symbols "a", .prepare .call "a" ⟨2, 1⟩,
        .neighbours .call .incoming selfCalling, .neighbours .call .outgoing selfCalling]
      ∧ ∃ said, i.Moderate {} said ∧ run.Is ⟨cyclic, none⟩ said
        ∧ times (.neighbours .incoming) said ≤ 1 := by
  intro i run
  obtain ⟨said, hmoderate, his⟩ := (asks_moderately {} i).2 ⟨cyclic, none⟩ 0
  exact ⟨by rfl, said, hmoderate, his, hmoderate.once _ (by decide) fun h => by cases h⟩

end Lookup

end SymbolQuery
