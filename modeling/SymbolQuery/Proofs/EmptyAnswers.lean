/-
Which lookups are errors, and which tables have no rows.

A lookup is an error where its request says nothing usable, and nothing is asked then.
Every other lookup gives the tables of its operation, whatever the provider does and
whenever the lookup is cancelled. A table has rows exactly where the provider finds
something for it: the target is located and the questions that the table is made from
are answered in time with something. This is said here in terms of the provider and of
the cancellation alone, and not by means of the lookups.
-/
import SymbolQuery.Proofs.Elapsed
import SymbolQuery.Proofs.FaultIsolation
import SymbolQuery.Proofs.TableEdits
import SymbolQuery.Proofs.Yields

set_option autoImplicit false

namespace SymbolQuery

/-! ## Malformed requests -/

/-- What is wrong with a request: it names no document, or in it neither a symbol nor a place. -/
inductive LookupRequest.Malformed (r : LookupRequest) : MalformedInput → Prop
  | uri (huri : Text.isBlankText r.uri = true) : r.Malformed .missingUri
  | target (huri : Text.isBlankText r.uri = false)
      (hname : ∀ name, r.name = some name → Text.isBlankText name = true)
      (hplace : ¬ (r.line.isSome = true ∧ r.character.isSome = true)) :
      r.Malformed .missingTarget

namespace LookupRequest

theorem name?_eq_none_iff (r : LookupRequest) :
    r.name? = none ↔ ∀ name, r.name = some name → Text.isBlankText name = true := by
  simp [name?, Option.filter_eq_none_iff]

theorem position?_eq_none_iff (r : LookupRequest) :
    r.position? = none ↔ ¬ (r.line.isSome = true ∧ r.character.isSome = true) := by
  unfold position?
  cases r.line <;> cases r.character <;> simp

/-- A request has no target exactly if it is malformed. -/
theorem target_eq_error_iff (r : LookupRequest) (e : MalformedInput) :
    r.target = .error e ↔ r.Malformed e := by
  unfold target
  by_cases huri : Text.isBlankText r.uri = true
  · rw [if_pos huri]
    constructor
    · rintro ⟨⟩
      exact .uri huri
    · rintro (_ | ⟨huri', _, _⟩)
      · rfl
      · rw [huri] at huri'
        cases huri'
  · rw [if_neg huri]
    constructor
    · intro h
      cases hname : r.name? with
      | some name =>
        rw [hname] at h
        cases h
      | none =>
        cases hplace : r.position? with
        | some p =>
          rw [hname, hplace] at h
          cases h
        | none =>
          rw [hname, hplace] at h
          cases h
          exact .target (by simpa using huri) (r.name?_eq_none_iff.mp hname)
            (r.position?_eq_none_iff.mp hplace)
    · rintro (huri' | ⟨_, hname, hplace⟩)
      · exact absurd huri' huri
      · rw [r.name?_eq_none_iff.mpr hname, r.position?_eq_none_iff.mpr hplace]

end LookupRequest

/-! ## Tables that are shown or empty -/

namespace Table

/-- A table that has rows if something is found and else is the empty table of its kind. -/
structure ShowsIf (found : Prop) (kind : TableKind) (t : Table) : Prop where
  kind_eq : t.kind = kind
  rows : found → t.rows ≠ []
  empty : ¬ found → t = Table.empty kind

namespace ShowsIf

variable {o : OutputLimits} {found found' : Prop} {kind : TableKind} {t : Table}

theorem of_not (h : ¬ found) : ShowsIf found kind (Table.empty kind) :=
  ⟨rfl, fun hfound => absurd hfound h, fun _ => rfl⟩

theorem congr (h : ShowsIf found kind t) (hiff : found ↔ found') : ShowsIf found' kind t :=
  ⟨h.kind_eq, fun hfound => h.rows (hiff.mpr hfound), fun hnot => h.empty (mt hiff.mp hnot)⟩

/-- A table that gives an account of its rows has none only if none were given. -/
theorem of_accounts {given : List Row} (h : Accounts o given t) (hkind : t.kind = kind)
    (hempty : given = [] → t = Table.empty kind) : ShowsIf (given ≠ []) kind t := by
  refine ⟨hkind, fun hgiven => ?_, fun hnot => hempty (not_not.mp hnot)⟩
  by_cases htruncated : t.truncated = true
  · obtain ⟨shown, _, hlength⟩ := h.length_rows htruncated
    exact List.ne_nil_of_length_eq_add_one hlength
  · rw [h.whole (by simpa using htruncated)]
    simpa using hgiven

theorem encode (o : OutputLimits) (kind : TableKind) (given : List Row) :
    ShowsIf (given ≠ []) kind (Table.encode o kind given) := by
  apply of_accounts (accounts_encode o kind given) rfl
  rintro rfl
  rfl

theorem encodeBounded (o : OutputLimits) (kind : TableKind) (given : List Row) :
    ShowsIf (given ≠ []) kind (Table.encodeBounded o kind given) := by
  apply of_accounts (accounts_encodeBounded o kind given) (Lookup.kind_encodeBounded o kind given)
  rintro rfl
  -- a table without rows is within every limit
  rw [Table.encodeBounded_of_le (Nat.zero_le _)]
  rfl

theorem encodeSampled (o : OutputLimits) (kind : TableKind) (given : List Row) :
    ShowsIf (given ≠ []) kind (Table.encodeSampled o kind given) := by
  by_cases hceiling : given.length ≤ o.samplingCeiling
  · rw [Table.encodeSampled_of_le hceiling]
    exact encodeBounded o kind given
  · have haccounts := accounts_encodeSampled o kind given
    rw [Table.encodeSampled_of_lt (Nat.not_le.mp hceiling)] at haccounts ⊢
    apply of_accounts haccounts rfl
    rintro rfl
    exact absurd (Nat.zero_le _) hceiling

end ShowsIf

end Table

namespace Lookup

/-! ## What is found -/

/-- The kind of the table of one side. -/
def sideKind (kind : HierarchyKind) : Direction → TableKind
  | .incoming => (sideKinds kind).1
  | .outgoing => (sideKinds kind).2

section Finds

variable (c : Config) (w : World) (t : Nat) (uri : String)

/-- The provider gives symbols of a document. -/
def FindsSymbols : Prop :=
  ∃ forest t', w.Answers t c.timeouts.symbols (.symbols uri) forest t' ∧ forest ≠ []

/-- The provider gives symbols among which the target is found, and others are below it. -/
def FindsChildren (depth : ChildDepth) (target : LookupTarget) : Prop :=
  ∃ forest t' s, w.Answers t c.timeouts.symbols (.symbols uri) forest t'
    ∧ (resolveIn forest target).symbol? = some s ∧ s.descendants depth ≠ []

/-- The target is located, and the provider gives places for it. -/
def FindsLocations (query : LocationQuery) (target : LookupTarget) : Prop :=
  ∃ p t₁ found t₂, Locates c w t uri target p t₁
    ∧ w.Answers t₁ (locationDeadline c.timeouts query) (.locations query uri p) found t₂
    ∧ found ≠ []

/-- The target is located, and the provider gives a hover text for it. -/
def FindsHover (target : LookupTarget) : Prop :=
  ∃ p t₁ h t₂, Locates c w t uri target p t₁
    ∧ w.Answers t₁ c.timeouts.hover (.hover uri p) (some h) t₂

/-- The target is located, the provider prepares a root there, and it gives edges on that side of
the first one. -/
def FindsEdges (kind : HierarchyKind) (direction : Direction) (target : LookupTarget) : Prop :=
  ∃ p t₁ root others t₂ edges t₃, Locates c w t uri target p t₁
    ∧ w.Answers t₁ (prepareDeadline c.timeouts kind) (.prepare kind uri p) (root :: others) t₂
    ∧ w.Answers t₂ (branchDeadline c.timeouts kind) (.neighbours kind direction root) edges t₃
    ∧ edges ≠ []

end Finds

/-! ## The tables of each lookup -/

section Tables

variable {c : Config} {w : World} {t : Nat} {uri : String}

theorem locationTable_showsIf (o : OutputLimits) (query : LocationQuery) (rows : List Row) :
    (locationTable o query rows).ShowsIf (rows ≠ []) .locations := by
  unfold locationTable
  split
  · exact .encodeSampled o _ rows
  · exact .encodeBounded o _ rows

theorem yields_locationsAt (query : LocationQuery) (target : LookupTarget) :
    Timed.Yields w t (locationsAt c query uri target) fun table _ =>
      table.ShowsIf (FindsLocations c w t uri query target) .locations := by
  apply Timed.Yields.bind (yields_queryPoint target)
  rintro _ t₁ (⟨point, rfl, hlocated⟩ | ⟨rfl, hnowhere⟩)
  · apply Timed.Yields.bind (.ask _ _)
    intro a t₂ ha
    have hgives := ha query.label
    dsimp only
    generalize Answer.reply query.label a = r at hgives ⊢
    cases hgives with
    | @reply found _ hanswer =>
      apply Timed.Yields.bind (yields_previews found _)
      intro shown t₃ hshown
      apply Timed.Yields.pure
      apply (locationTable_showsIf _ query _).congr
      -- each place has a row
      have hrows : List.zipWith locationRow found shown ≠ [] ↔ found ≠ [] := by
        rw [← List.length_pos_iff, ← List.length_pos_iff, List.length_zipWith, hshown, Nat.min_self]
      rw [hrows]
      constructor
      · intro hfound
        exact ⟨_, _, found, _, hlocated, hanswer, hfound⟩
      · rintro ⟨_, _, found', _, hlocated', hanswer', hfound⟩
        obtain ⟨rfl, rfl⟩ := hlocated.unique hlocated'
        rwa [(hanswer.unique hanswer').1]
    | fault hnone =>
      apply Table.ShowsIf.of_not
      rintro ⟨_, _, _, _, hlocated', hanswer, _⟩
      obtain ⟨rfl, rfl⟩ := hlocated.unique hlocated'
      exact hnone _ _ hanswer
  · apply Table.ShowsIf.of_not
    rintro ⟨_, _, _, _, hlocated, _⟩
    exact hnowhere _ _ hlocated

theorem yields_hoverAt (target : LookupTarget) :
    Timed.Yields w t (hoverAt c uri target) fun table _ =>
      table.ShowsIf (FindsHover c w t uri target) .hover := by
  apply Timed.Yields.bind (yields_queryPoint target)
  rintro _ t₁ (⟨point, rfl, hlocated⟩ | ⟨rfl, hnowhere⟩)
  · apply Timed.Yields.bind (.ask _ _)
    intro a t₂ ha
    have hgives := ha "hover"
    dsimp only
    generalize Answer.reply "hover" a = r at hgives ⊢
    cases hgives with
    | @reply found _ hanswer =>
      cases found with
      | none =>
        apply Table.ShowsIf.of_not
        rintro ⟨_, _, h, _, hlocated', hanswer'⟩
        obtain ⟨rfl, rfl⟩ := hlocated.unique hlocated'
        cases (hanswer.unique hanswer').1
      | some h =>
        -- whatever name and range the row gets, there is one row
        have hshows : ∀ row, (Table.encode c.output .hover [row]).ShowsIf
            (FindsHover c w t uri target) .hover := by
          intro row
          apply (Table.ShowsIf.encode c.output .hover [row]).congr
          exact ⟨fun _ => ⟨_, _, h, _, hlocated, hanswer⟩, fun _ => List.cons_ne_nil row []⟩
        dsimp only
        cases point.symbol <;> exact hshows _
    | fault hnone =>
      apply Table.ShowsIf.of_not
      rintro ⟨_, _, _, _, hlocated', hanswer⟩
      obtain ⟨rfl, rfl⟩ := hlocated.unique hlocated'
      exact hnone _ _ hanswer
  · apply Table.ShowsIf.of_not
    rintro ⟨_, _, _, _, hlocated, _⟩
    exact hnowhere _ _ hlocated

/-- Each symbol has a row, whatever hover texts there are. -/
theorem length_symbolRows (es : List (Symbol × Option Symbol)) (hovers : List String) :
    (symbolRows es hovers).length = es.length := by
  induction es generalizing hovers with
  | nil => rfl
  | cons e rest ih => cases hovers <;> exact congrArg (· + 1) (ih _)

theorem walk_eq_nil_iff (forest : List Symbol) : Symbol.walk forest = [] ↔ forest = [] := by
  cases forest with
  | nil => exact ⟨fun _ => rfl, fun _ => rfl⟩
  | cons s rest =>
    obtain ⟨name, kind, range, selectionRange, detail, children⟩ := s
    simp [Symbol.walk, Symbol.walkForest, Symbol.walkTree]

theorem yields_documentSymbolsIn :
    Timed.Yields w t (documentSymbolsIn c uri) fun table _ =>
      table.ShowsIf (FindsSymbols c w t uri) .documentSymbols := by
  apply Timed.Yields.bind yields_fetchSymbols
  rintro _ t₁ (⟨hanswer⟩ | ⟨hnone, fault, _⟩)
  · rename_i forest
    -- the hover texts do not change how many rows there are
    apply Timed.Yields.bind (P := fun _ _ => True) (.of_forall fun _ _ => trivial)
    intro hovers t₂ _
    apply Timed.Yields.pure
    apply (Table.ShowsIf.encodeBounded c.output .documentSymbols _).congr
    have hrows : symbolRows (Symbol.walk forest) hovers ≠ [] ↔ forest ≠ [] := by
      rw [← List.length_pos_iff, length_symbolRows, List.length_pos_iff, ne_eq, walk_eq_nil_iff]
    rw [hrows]
    constructor
    · intro hforest
      exact ⟨forest, _, hanswer, hforest⟩
    · rintro ⟨forest', _, hanswer', hforest⟩
      rwa [(hanswer.unique hanswer').1]
  · apply Table.ShowsIf.of_not
    rintro ⟨_, _, hanswer, _⟩
    exact hnone _ _ hanswer

theorem yields_childrenOf (depth : ChildDepth) (target : LookupTarget) :
    Timed.Yields w t (childrenOf c uri depth target) fun table _ =>
      table.ShowsIf (FindsChildren c w t uri depth target) .children := by
  apply Timed.Yields.bind (yields_resolveTarget target)
  rintro r t₁ ⟨hsound, hr⟩
  apply Timed.Yields.bind (yields_accept target r)
  rintro _ _ ⟨rfl, rfl⟩
  rw [hsound.accepted_eq]
  obtain ⟨forest, hanswer, rfl⟩ | ⟨hnone, fault, rfl⟩ := hr
  · cases hfound : (resolveIn forest target).symbol? with
    | some s =>
      apply Timed.Yields.pure
      apply (Table.ShowsIf.encodeBounded c.output .children _).congr
      rw [ne_eq, List.map_eq_nil_iff]
      constructor
      · intro hbelow
        exact ⟨forest, _, s, hanswer, hfound, hbelow⟩
      · rintro ⟨forest', _, s', hanswer', hfound', hbelow⟩
        rw [← (hanswer.unique hanswer').1, hfound] at hfound'
        cases hfound'
        exact hbelow
    | none =>
      apply Table.ShowsIf.of_not
      rintro ⟨forest', _, s', hanswer', hfound', _⟩
      rw [← (hanswer.unique hanswer').1, hfound] at hfound'
      cases hfound'
  · apply Table.ShowsIf.of_not
    rintro ⟨_, _, _, hanswer, _⟩
    exact hnone _ _ hanswer

/-- Edges that the provider gives on one side of a root. -/
def GivesEdges (c : Config) (w : World) (t : Nat) (kind : HierarchyKind) (direction : Direction)
    (root : HierarchyItem) : Prop :=
  ∃ edges t',
    w.Answers t (branchDeadline c.timeouts kind) (.neighbours kind direction root) edges t'
    ∧ edges ≠ []

theorem yields_branch (kind : HierarchyKind) (root : HierarchyItem) (direction : Direction) :
    Timed.Yields w t (branch c.timeouts kind root direction) fun edges _ =>
      edges ≠ [] ↔ GivesEdges c w t kind direction root := by
  apply Timed.Yields.bind (.ask _ _)
  intro a t₁ ha
  have hgives := ha (branchOperation kind direction)
  generalize Answer.reply (branchOperation kind direction) a = r at hgives ⊢
  cases hgives with
  | @reply edges _ hanswer =>
    apply Timed.Yields.pure
    constructor
    · intro hedges
      exact ⟨edges, _, hanswer, hedges⟩
    · rintro ⟨_, _, hanswer', hedges⟩
      rwa [(hanswer.unique hanswer').1]
  | fault hnone =>
    change [] ≠ [] ↔ _
    constructor
    · intro h
      exact absurd rfl h
    · rintro ⟨_, _, hanswer, _⟩
      exact absurd hanswer (hnone _ _)

/-- A root has the edges that the provider gives on each side; without a root there are none. -/
theorem yields_traverse (kind : HierarchyKind) (p : Position) :
    Timed.Yields w t (traverse c.timeouts uri p kind) fun r _ =>
      (∃ root others t₁ incoming outgoing,
        w.Answers t (prepareDeadline c.timeouts kind) (.prepare kind uri p) (root :: others) t₁
          ∧ r = some ⟨kind, some root, incoming, outgoing⟩
          ∧ (incoming ≠ [] ↔ GivesEdges c w t₁ kind .incoming root)
          ∧ (outgoing ≠ [] ↔ GivesEdges c w t₁ kind .outgoing root))
        ∨ (∀ root others t₁, ¬ w.Answers t (prepareDeadline c.timeouts kind) (.prepare kind uri p)
            (root :: others) t₁)
          ∧ (r = none ∨ r = some (HierarchyResult.empty kind)) := by
  apply Timed.Yields.bind (.ask _ _)
  intro a t₁ ha
  have hgives := ha (prepareOperation kind)
  dsimp only
  generalize Answer.reply (prepareOperation kind) a = r at hgives ⊢
  cases hgives with
  | @reply roots _ hanswer =>
    cases roots with
    | nil =>
      refine .inr ⟨?_, .inr rfl⟩
      intro root others t₂ hanswer'
      cases (hanswer.unique hanswer').1
    | cons root others =>
      apply Timed.Yields.bind (.both (yields_branch kind root _) (yields_branch kind root _))
      rintro ⟨incoming, outgoing⟩ t₂ ⟨⟨_, hincoming⟩, _, houtgoing⟩
      exact .inl ⟨root, others, t₁, incoming, outgoing, hanswer, rfl, hincoming, houtgoing⟩
  | fault hnone fault =>
    have hroot := fun root others t₁ => hnone (root :: others) t₁
    cases fault with
    | failed operation source => exact .inr ⟨hroot, .inl rfl⟩
    | _ => exact .inr ⟨hroot, .inr rfl⟩

theorem yields_hierarchyAt (kind : HierarchyKind) (target : LookupTarget) :
    Timed.Yields w t (hierarchyAt c kind uri target) fun tables _ =>
      ∀ direction, (tables.side direction).ShowsIf (FindsEdges c w t uri kind direction target)
        (sideKind kind direction) := by
  apply Timed.Yields.bind (yields_queryPoint target)
  rintro _ t₁ (⟨point, rfl, hlocated⟩ | ⟨rfl, hnowhere⟩)
  · apply Timed.Yields.bind (yields_traverse kind point.position)
    rintro _ t₂ (⟨root, others, t₃, incoming, outgoing, hanswer, rfl, hincoming, houtgoing⟩
      | ⟨hnone, hr⟩)
    · have hfinds : ∀ direction, GivesEdges c w t₃ kind direction root
          ↔ FindsEdges c w t uri kind direction target := by
        intro direction
        constructor
        · rintro ⟨edges, t₄, hedges, hne⟩
          exact ⟨_, _, root, others, _, edges, t₄, hlocated, hanswer, hedges, hne⟩
        · rintro ⟨_, _, _, _, _, edges, t₄, hlocated', hanswer', hedges, hne⟩
          obtain ⟨rfl, rfl⟩ := hlocated.unique hlocated'
          obtain ⟨⟨rfl, rfl⟩, rfl⟩ := hanswer.unique hanswer'
          exact ⟨edges, t₄, hedges, hne⟩
      have hrows : ∀ edges : List Edge, edges.map (edgeRow kind) ≠ [] ↔ edges ≠ [] := by
        intro edges
        rw [ne_eq, List.map_eq_nil_iff]
      rintro (_ | _)
      · exact (Table.ShowsIf.encodeBounded c.output _ _).congr
          ((hrows incoming).trans (hincoming.trans (hfinds .incoming)))
      · exact (Table.ShowsIf.encodeBounded c.output _ _).congr
          ((hrows outgoing).trans (houtgoing.trans (hfinds .outgoing)))
    · have hnot : ∀ direction, ¬ FindsEdges c w t uri kind direction target := by
        rintro direction ⟨_, _, root, others, _, _, _, hlocated', hanswer, _⟩
        obtain ⟨rfl, rfl⟩ := hlocated.unique hlocated'
        exact hnone root others _ hanswer
      obtain rfl | rfl := hr
      · rintro (_ | _) <;> exact .of_not (hnot _)
      · rintro (_ | _) <;>
          exact (Table.ShowsIf.encodeBounded c.output _ []).congr (by simp [hnot])
  · have hnot : ∀ direction, ¬ FindsEdges c w t uri kind direction target := by
      rintro direction ⟨_, _, _, _, _, _, _, hlocated, _⟩
      exact hnowhere _ _ hlocated
    rintro (_ | _) <;> exact .of_not (hnot _)

end Tables

/-! ## Errors and tables -/

namespace Inquiry

/-- The request of a lookup; for the symbols of a document there is none. -/
def request? : Inquiry → Option LookupRequest
  | .resolve request => some request
  | .documentSymbols _ => none
  | .locations _ request => some request
  | .hover request => some request
  | .children request _ => some request
  | .hierarchy _ request => some request

/-- The kinds of the tables that a lookup gives. -/
def kinds : Inquiry → List TableKind
  | .resolve _ => []
  | .documentSymbols _ => [.documentSymbols]
  | .locations _ _ => [.locations]
  | .hover _ => [.hover]
  | .children _ _ => [.children]
  | .hierarchy .call _ => [.incomingCalls, .outgoingCalls]
  | .hierarchy .type _ => [.supertypes, .subtypes]

/-- What is wrong with what a lookup is given. -/
inductive Malformed : Inquiry → MalformedInput → Prop
  | uri {uri : String} (h : Text.isBlankText uri = true) :
      Malformed (.documentSymbols uri) .missingUri
  | request {i : Inquiry} {request : LookupRequest} {e : MalformedInput}
      (hrequest : i.request? = some request) (h : request.Malformed e) : Malformed i e

/-- The provider finds something for the table of a kind. -/
inductive Finds (c : Config) (w : World) (t : Nat) : Inquiry → TableKind → Prop
  | documentSymbols {uri : String} (h : FindsSymbols c w t uri) :
      Finds c w t (.documentSymbols uri) .documentSymbols
  | locations {query : LocationQuery} {request : LookupRequest} {target : LookupTarget}
      (htarget : request.target = .ok target) (h : FindsLocations c w t request.uri query target) :
      Finds c w t (.locations query request) .locations
  | hover {request : LookupRequest} {target : LookupTarget}
      (htarget : request.target = .ok target) (h : FindsHover c w t request.uri target) :
      Finds c w t (.hover request) .hover
  | children {request : LookupRequest} {depth : Option ChildDepth} {target : LookupTarget}
      (htarget : request.target = .ok target)
      (h : FindsChildren c w t request.uri (depth.getD c.defaultDepth) target) :
      Finds c w t (.children request depth) .children
  | side {kind : HierarchyKind} {request : LookupRequest} {target : LookupTarget}
      {direction : Direction} (htarget : request.target = .ok target)
      (h : FindsEdges c w t request.uri kind direction target) :
      Finds c w t (.hierarchy kind request) (sideKind kind direction)

/-- The tables that a lookup has to give: one of each kind, with rows if something is found. -/
structure Shows (c : Config) (w : World) (t : Nat) (i : Inquiry) (finding : Finding) : Prop where
  kinds : finding.tables.map Table.kind = i.kinds
  tables : ∀ table ∈ finding.tables, table.ShowsIf (i.Finds c w t table.kind) table.kind

/-- The answer of a lookup at `t`: an error at once, without a question, if what it is given is
malformed; and else the tables that it has to give. -/
inductive Answered (c : Config) (w : World) (t : Nat) (i : Inquiry) :
    Run (Except MalformedInput Finding) → Prop
  | error {e : MalformedInput} (h : i.Malformed e) : i.Answered c w t ⟨.error e, t, [], []⟩
  | ok {r : Run (Except MalformedInput Finding)} {finding : Finding} (hwell : ∀ e, ¬ i.Malformed e)
      (hvalue : r.value = .ok finding) (h : i.Shows c w t finding) : i.Answered c w t r

variable {c : Config} {w : World} {t : Nat} {i : Inquiry}

theorem malformed_iff_of_request {request : LookupRequest} (h : i.request? = some request)
    (e : MalformedInput) : i.Malformed e ↔ request.target = .error e := by
  rw [request.target_eq_error_iff]
  constructor
  · rintro (_ | ⟨hrequest, hmalformed⟩)
    · cases h
    · rw [h] at hrequest
      cases hrequest
      exact hmalformed
  · exact .request h

theorem Malformed.unique {e e' : MalformedInput} (h : i.Malformed e) (h' : i.Malformed e') :
    e = e' := by
  cases h with
  | uri h =>
    rcases h' with _ | ⟨hrequest, _⟩
    · rfl
    · cases hrequest
  | request hrequest h =>
    have htarget' := (malformed_iff_of_request hrequest e').mp h'
    rw [(LookupRequest.target_eq_error_iff _ e).mpr h] at htarget'
    exact Except.error.inj htarget'

/-- The request is looked at first; if it has a target, the rest of the lookup decides. -/
theorem answered_withTarget {α : Type} {request : LookupRequest} {f : LookupTarget → Timed α}
    {g : α → Finding} (hrequest : i.request? = some request)
    (hf : ∀ target, request.target = .ok target →
      Timed.Yields w t (f target) fun a _ => i.Shows c w t (g a)) :
    i.Answered c w t ((do
      let a ← withTarget request f
      return a.map g : Timed _) w t) := by
  have hiff := malformed_iff_of_request hrequest
  unfold withTarget
  cases htarget : request.target with
  | error e => exact .error ((hiff e).mpr htarget)
  | ok target =>
    refine .ok (fun e hmalformed => ?_) rfl (hf target htarget)
    rw [hiff, htarget] at hmalformed
    cases hmalformed

/-- One table is all that a lookup has to give if its operation has one kind. -/
theorem shows_table {found : Prop} {kind : TableKind} {table : Table}
    (h : table.ShowsIf found kind) (hkinds : i.kinds = [kind])
    (hfinds : found ↔ i.Finds c w t kind) : i.Shows c w t (.table table) := by
  obtain rfl := h.kind_eq
  refine ⟨hkinds.symm, fun other hother => ?_⟩
  rw [List.mem_singleton.mp hother]
  exact h.congr hfinds

/-- Both sides are what a lookup of a hierarchy has to give. -/
theorem shows_sides {kind : HierarchyKind} {request : LookupRequest} {target : LookupTarget}
    {tables : HierarchyTables} (htarget : request.target = .ok target)
    (h : ∀ direction, (tables.side direction).ShowsIf
      (FindsEdges c w t request.uri kind direction target) (sideKind kind direction)) :
    (Inquiry.hierarchy kind request).Shows c w t (.sides tables) := by
  have hfinds : ∀ direction, FindsEdges c w t request.uri kind direction target
      ↔ (Inquiry.hierarchy kind request).Finds c w t (sideKind kind direction) := by
    intro direction
    refine ⟨.side htarget, fun hside => ?_⟩
    generalize hk : sideKind kind direction = k at hside
    cases hside with
    | @side _ _ target' direction' htarget' h' =>
      rw [htarget] at htarget'
      cases htarget'
      -- the two sides of a hierarchy have different kinds
      have hsame : direction = direction' := by
        revert hk
        cases kind <;> cases direction <;> cases direction' <;> simp [sideKind, sideKinds]
      rwa [hsame]
  have hside : ∀ direction, (tables.side direction).ShowsIf
      ((Inquiry.hierarchy kind request).Finds c w t (tables.side direction).kind)
      (tables.side direction).kind := by
    intro direction
    rw [(h direction).kind_eq]
    exact (h direction).congr (hfinds direction)
  constructor
  · have hincoming := (h .incoming).kind_eq
    have houtgoing := (h .outgoing).kind_eq
    cases kind <;> exact congrArg₂ (fun a b => [a, b]) hincoming houtgoing
  · intro table htable
    rcases List.mem_cons.mp htable with rfl | htable
    · exact hside .incoming
    · rw [List.mem_singleton.mp htable]
      exact hside .outgoing

/-- **Every lookup is answered.** -/
theorem answered (c : Config) (w : World) (t : Nat) (i : Inquiry) :
    i.Answered c w t ((i.answer c : Timed _) w t) := by
  cases i with
  | resolve request =>
    show Answered c w t _ ((do
      let a ← Lookup.resolve c.timeouts.symbols request
      return a.map .resolution : Timed _) w t)
    rw [resolve_eq_withTarget]
    refine answered_withTarget rfl fun target _ => .of_forall fun r _ => ⟨rfl, ?_⟩
    intro table htable
    cases htable
  | documentSymbols uri =>
    show Answered c w t _ ((do
      let a ← Lookup.documentSymbols c uri
      return a.map .table : Timed _) w t)
    unfold Lookup.documentSymbols
    by_cases hblank : Text.isBlankText uri = true
    · rw [if_pos hblank]
      exact .error (.uri hblank)
    · rw [if_neg hblank]
      refine .ok ?_ rfl (shows_table yields_documentSymbolsIn rfl ⟨.documentSymbols, ?_⟩)
      · rintro e (huri | ⟨hrequest, _⟩)
        · exact hblank huri
        · cases hrequest
      · rintro ⟨h⟩
        exact h
  | locations query request =>
    refine answered_withTarget rfl fun target htarget => ?_
    refine shows_table (yields_locationsAt query target) rfl ⟨.locations htarget, ?_⟩
    rintro (_ | ⟨htarget', h⟩)
    rw [htarget] at htarget'
    cases htarget'
    exact h
  | hover request =>
    refine answered_withTarget rfl fun target htarget => ?_
    refine shows_table (yields_hoverAt target) rfl ⟨.hover htarget, ?_⟩
    rintro (_ | _ | ⟨htarget', h⟩)
    rw [htarget] at htarget'
    cases htarget'
    exact h
  | children request depth =>
    refine answered_withTarget rfl fun target htarget => ?_
    refine shows_table (yields_childrenOf _ target) rfl ⟨.children htarget, ?_⟩
    rintro (_ | _ | _ | ⟨htarget', h⟩)
    rw [htarget] at htarget'
    cases htarget'
    exact h
  | hierarchy kind request =>
    exact answered_withTarget rfl fun target htarget =>
      shows_sides htarget (yields_hierarchyAt kind target)

end Inquiry

/-- **Only malformed input is an error.** Whatever is looked up, with whatever settings, provider
and cancellation: the answer is an error exactly if what the lookup is given is malformed, that is,
if the URI is blank or if the request has neither a name that is not blank nor both coordinates.
Then nothing is asked. Else the answer has the tables of its operation, each with the header of its
kind. A table is empty unless the provider finds something for it, so it is empty where the name is
not resolved and where the question that the table is made from fails, is too slow, is cancelled or
gives nothing. -/
theorem only_malformed_is_error (c : Config) (w : World) (t : Nat) (i : Inquiry) :
    let r := (i.answer c : Timed (Except MalformedInput Finding)) w t
    (∀ e, r.value = .error e ↔ i.Malformed e)
      ∧ (∀ request, i.request? = some request →
        ∀ e, r.value = .error e ↔ request.target = .error e)
      ∧ (∀ e, r.value = .error e → r = ⟨.error e, t, [], []⟩)
      ∧ ∀ finding, r.value = .ok finding →
        finding.tables.map (fun table => (table.kind, table.header))
            = i.kinds.map (fun kind => (kind, kind.header))
          ∧ ∀ table ∈ finding.tables,
            (¬ i.Finds c w t table.kind → table = Table.empty table.kind)
              ∧ (i.Finds c w t table.kind → table.rows ≠ []) := by
  intro r
  have hanswered : i.Answered c w t r := Inquiry.answered c w t i
  have herror : ∀ e, r.value = .error e ↔ i.Malformed e := by
    intro e
    generalize r = r' at hanswered
    cases hanswered with
    | @error e' h =>
      constructor
      · rintro ⟨⟩
        exact h
      · intro h'
        exact congrArg Except.error (h.unique h')
    | ok hwell hvalue =>
      rw [hvalue]
      constructor
      · rintro ⟨⟩
      · intro h'
        exact absurd h' (hwell e)
  refine ⟨herror, ?_, ?_, ?_⟩
  · intro request hrequest e
    rw [herror, Inquiry.malformed_iff_of_request hrequest]
  · intro e hr
    generalize r = r' at hanswered hr
    cases hanswered with
    | error h =>
      cases hr
      rfl
    | ok hwell hvalue =>
      rw [hvalue] at hr
      cases hr
  · intro finding hr
    generalize r = r' at hanswered hr
    cases hanswered with
    | error h => cases hr
    | ok hwell hvalue hshows =>
      rw [hvalue] at hr
      cases hr
      constructor
      · rw [← hshows.kinds, List.map_map]
        rfl
      · intro table htable
        exact ⟨(hshows.tables table htable).empty, (hshows.tables table htable).rows⟩

/-- The places for a position are not shown where the provider never gives them. A request with a
blank name and one coordinate is an error. -/
theorem only_malformed_is_error_silent :
    let places := Inquiry.locations .references (.atPosition "a" ⟨0, 0⟩)
    let silent := twoOfEach.silent fun | .locations _ _ _ => true | _ => false
    let answer := fun (p : Provider) (i : Inquiry) =>
      (i.answer {} : Timed (Except MalformedInput Finding)) ⟨p, none⟩ 0
    (∃ table, (answer twoOfEach places).value = .ok (.table table) ∧ table.rows ≠ [])
      ∧ (answer silent places).value = .ok (.table (Table.empty .locations))
      ∧ answer twoOfEach (.hover ⟨"a", some 0, none, some " "⟩)
          = ⟨.error .missingTarget, 0, [], []⟩ := by
  intro places silent answer
  refine ⟨?_, ?_, ?_⟩
  · obtain ⟨table, htable⟩ : ∃ table, (answer twoOfEach places).value = .ok (.table table) :=
      ⟨_, rfl⟩
    obtain ⟨hkinds, hshown⟩ :=
      (only_malformed_is_error {} ⟨twoOfEach, none⟩ 0 places).2.2.2 _ htable
    have hkind : table.kind = .locations := congrArg Prod.fst (List.cons.inj hkinds).1
    refine ⟨table, htable, (hshown table List.mem_cons_self).2 ?_⟩
    rw [hkind]
    refine .locations rfl
      ⟨_, _, _, 0, .position _, ⟨rfl, ⟨0, rfl, ?_, rfl⟩, ?_⟩, List.cons_ne_nil _ _⟩
    · exact Nat.zero_le _
    · rintro _ ⟨⟩
  · obtain ⟨table, htable⟩ : ∃ table, (answer silent places).value = .ok (.table table) := ⟨_, rfl⟩
    obtain ⟨hkinds, hshown⟩ := (only_malformed_is_error {} ⟨silent, none⟩ 0 places).2.2.2 _ htable
    have hkind : table.kind = .locations := congrArg Prod.fst (List.cons.inj hkinds).1
    rw [htable, (hshown table List.mem_cons_self).1, hkind]
    rw [hkind]
    intro hfinds
    change Inquiry.Finds {} _ 0 (.locations .references _) .locations at hfinds
    rcases hfinds with _ | ⟨_, _, _, _, _, _, hanswer, _⟩
    obtain ⟨_, hdelay, _⟩ := hanswer.delay
    cases hdelay
  · apply (only_malformed_is_error {} ⟨twoOfEach, none⟩ 0 _).2.2.1
    apply ((only_malformed_is_error {} ⟨twoOfEach, none⟩ 0 _).1 _).mpr
    refine .request rfl (.target (by decide) ?_ (by decide))
    rintro _ ⟨⟩
    decide

end Lookup

end SymbolQuery
