/-
How far the fault of one call reaches.

Some calls of a lookup only add to an answer: reading a document gives the text around
the places in it, asking for a hover text gives one cell, asking for one side of a
hierarchy gives one table. Two providers that differ in nothing but one such call, be it
in what it gives, in how long it takes or in whether it ever ends, give answers that
differ in nothing but these cells or this table. No row is moved, lost or added by it.

Without a cancellation a lookup gives what its untimed reading gives, and there the two
providers can be compared question by question.
-/
import Mathlib.Data.List.Forall2
import SymbolQuery.Proofs.VisibleRows

set_option autoImplicit false

namespace SymbolQuery

/-! ## Tables that differ in some cells -/

namespace Table

/-- Two lines that are the same, or are the lines of two rows that may differ. -/
def LinesAlike (cap : Nat) (mayDiffer : Row → Row → Prop) (l l' : String) : Prop :=
  l = l' ∨ ∃ r r', mayDiffer r r' ∧ l = encodeRow cap r ∧ l' = encodeRow cap r'

/-- Two tables that are the same but for lines of rows that may differ. -/
structure Alike (cap : Nat) (mayDiffer : Row → Row → Prop) (t t' : Table) : Prop where
  kind : t.kind = t'.kind
  truncated : t.truncated = t'.truncated
  originalRowCount : t.originalRowCount = t'.originalRowCount
  rows : List.Forall₂ (LinesAlike cap mayDiffer) t.rows t'.rows

section Alike

variable {cap : Nat} {mayDiffer : Row → Row → Prop}

theorem LinesAlike.refl (l : String) : LinesAlike cap mayDiffer l l := .inl rfl

theorem Alike.refl (t : Table) : Alike cap mayDiffer t t :=
  ⟨rfl, rfl, rfl, List.forall₂_same.mpr fun l _ => LinesAlike.refl l⟩

theorem alike_encode (o : OutputLimits) (kind : TableKind) {rows rows' : List Row}
    (h : List.Forall₂ (fun r r' => r = r' ∨ mayDiffer r r') rows rows') :
    Alike o.fieldCharCap mayDiffer (encode o kind rows) (encode o kind rows') := by
  refine ⟨rfl, rfl, h.length_eq, ?_⟩
  rw [encode, encode, List.forall₂_map_left_iff, List.forall₂_map_right_iff]
  refine h.imp ?_
  rintro r r' (rfl | hdiffer)
  · exact LinesAlike.refl _
  · exact .inr ⟨r, r', hdiffer, rfl, rfl⟩

/-- Tables that are alike are cut at the same row. -/
theorem Alike.truncate {t t' : Table} (h : Alike cap mayDiffer t t') (max : Nat) :
    Alike cap mayDiffer (t.truncate max) (t'.truncate max) := by
  -- whether a table fits is read off its mark and its counts, and these are the same
  have hlength := h.rows.length_eq
  have hfits : t.fits max = t'.fits max := by
    rw [fits, fits, h.truncated, h.originalRowCount, hlength]
  by_cases hfit : t.fits max = true
  · rw [Table.truncate, Table.truncate, if_pos hfit, if_pos (hfits ▸ hfit)]
    exact h
  · rw [Table.truncate, Table.truncate, if_neg hfit, if_neg (hfits ▸ hfit), h.originalRowCount]
    refine ⟨h.kind, rfl, rfl, ?_⟩
    have hnotice : List.Forall₂ (LinesAlike cap mayDiffer)
        [hiddenNotice (t'.originalRowCount - max) t'.originalRowCount]
        [hiddenNotice (t'.originalRowCount - max) t'.originalRowCount] :=
      .cons (LinesAlike.refl _) .nil
    exact List.rel_append (List.forall₂_take max h.rows) hnotice

theorem alike_encodeBounded (o : OutputLimits) (kind : TableKind) {rows rows' : List Row}
    (h : List.Forall₂ (fun r r' => r = r' ∨ mayDiffer r r') rows rows') :
    Alike o.fieldCharCap mayDiffer (encodeBounded o kind rows) (encodeBounded o kind rows') :=
  (alike_encode o kind h).truncate o.maxRows

theorem alike_encodeSampled (o : OutputLimits) (kind : TableKind) {rows rows' : List Row}
    (h : List.Forall₂ (fun r r' => r = r' ∨ mayDiffer r r') rows rows') :
    Alike o.fieldCharCap mayDiffer (encodeSampled o kind rows) (encodeSampled o kind rows') := by
  have hlength := h.length_eq
  by_cases hceiling : rows.length ≤ o.samplingCeiling
  · rw [encodeSampled_of_le hceiling, encodeSampled_of_le (hlength ▸ hceiling)]
    exact alike_encodeBounded o kind h
  · have hmany : o.samplingCeiling < rows.length := Nat.not_le.mp hceiling
    rw [encodeSampled_of_lt hmany, encodeSampled_of_lt (hlength ▸ hmany), ← hlength]
    -- the sample takes as many rows of one table as of the other
    have hsample := alike_encode o kind (List.forall₂_take (min o.sampleSize rows.length) h)
    exact ⟨rfl, rfl, rfl, List.rel_append hsample.rows (.cons (LinesAlike.refl _) .nil)⟩

end Alike

end Table

/-! ## Providers that differ in one call -/

/-- Two providers that behave the same for all questions but some. -/
def Provider.AgreeOff (excepted : Question → Prop) (p p' : Provider) : Prop :=
  ∀ q, ¬ excepted q → p q = p' q

theorem Provider.answer_congr {p p' : Provider} {q : Question} (h : p q = p' q) (deadline : Nat) :
    p.answer deadline q = p'.answer deadline q := by
  rw [answer, answer, h]

/-- The provider, except that some questions are never answered. -/
def Provider.silent (p : Provider) (on : Question → Bool) : Provider := fun q =>
  if on q then ⟨none, .error .notConnected⟩ else p q

theorem Provider.agreeOff_silent (p : Provider) {excepted : Question → Prop} {on : Question → Bool}
    (h : ∀ q, on q = true → excepted q) : p.AgreeOff excepted (p.silent on) := by
  intro q hq
  have hoff : ¬ on q = true := fun hon => hq (h q hon)
  exact (if_neg hoff).symm

namespace Lookup

variable (p p' : Provider)

/-! ## Untimed readings -/

theorem run_fetchSymbols (deadline : Nat) (uri : String) :
    (fetchSymbols deadline uri : Untimed _).run p
      = Answer.reply "documentSymbol" (p.answer deadline (.symbols uri)) := rfl

theorem run_resolveTarget (deadline : Nat) (uri : String) (target : LookupTarget) :
    (resolveTarget deadline uri target : Untimed _).run p
      = match Answer.reply "documentSymbol" (p.answer deadline (.symbols uri)) with
        | .error fault => .failed (.call fault)
        | .ok forest => resolveIn forest target := by
  rw [resolveTarget, Untimed.run_bind, run_fetchSymbols]
  cases Answer.reply "documentSymbol" (p.answer deadline (.symbols uri)) <;> rfl

theorem run_accept (target : LookupTarget) (r : Resolution) :
    (accept target r : Untimed _).run p = r.accepted := by
  unfold accept Resolution.accepted
  cases r.error? with
  | some text => rfl
  | none =>
    cases target with
    | position p => rfl
    | name name hint =>
      dsimp only
      split
      · rfl
      · rfl

theorem run_withTarget {α : Type} (request : LookupRequest) (f : LookupTarget → Untimed α) :
    (withTarget request f).run p = request.target.map fun target => (f target).run p := by
  rw [withTarget]
  cases request.target <;> rfl

theorem run_traverse (t : Timeouts) (uri : String) (q : Position) (kind : HierarchyKind) :
    (traverse t uri q kind : Untimed _).run p
      = match Answer.reply (prepareOperation kind)
            (p.answer (prepareDeadline t kind) (.prepare kind uri q)) with
        | .error (.failed _ _) => none
        | .error _ => some (HierarchyResult.empty kind)
        | .ok [] => some (HierarchyResult.empty kind)
        | .ok (root :: _) =>
          some ⟨kind, some root, (branch t kind root .incoming : Untimed _).run p,
            (branch t kind root .outgoing : Untimed _).run p⟩ := by
  rw [traverse, Untimed.run_bind, Untimed.run_ask]
  rcases Answer.reply (prepareOperation kind) _ with (fault | roots)
  · cases fault <;> rfl
  · cases roots <;> rfl

/-! ## Questions that are not asked -/

variable {p p'}

/-- The point of a target rests on the symbols of its document alone. -/
theorem run_queryPoint_congr {uri : String} (h : p (.symbols uri) = p' (.symbols uri))
    (t : Timeouts) (target : LookupTarget) :
    (queryPoint t uri target : Untimed _).run p = (queryPoint t uri target : Untimed _).run p' := by
  cases target with
  | position q => rfl
  | name name hint =>
    simp only [queryPoint, Untimed.run_bind, Untimed.run_pure, run_resolveTarget, run_accept,
      Provider.answer_congr h]

theorem run_preview_congr {l : Location} (h : p (.document l.uri) = p' (.document l.uri))
    (deadline : Nat) :
    (preview deadline l.uri l.range.start.line : Untimed _).run p
      = (preview deadline l.uri l.range.start.line : Untimed _).run p' := by
  have hdocument : (document deadline l.uri : Untimed _).run p
      = (document deadline l.uri : Untimed _).run p' := by
    simp only [document, Untimed.run_bind, Untimed.run_ask, Provider.answer_congr h]
    rcases p'.answer deadline (.document l.uri) with (_ | _) | (_ | _) <;> rfl
  rw [run_preview, run_preview, hdocument]

theorem run_hoverText_congr {uri : String} {q : Position} (h : p (.hover uri q) = p' (.hover uri q))
    (c : Config) :
    (hoverText c uri q : Untimed _).run p = (hoverText c uri q : Untimed _).run p' := by
  simp only [hoverText, Untimed.run_bind, Untimed.run_ask, Provider.answer_congr h]
  rcases p'.answer c.timeouts.hover (.hover uri q) with (_ | _) | (_ | (_ | _)) <;> rfl

theorem run_branch_congr {kind : HierarchyKind} {direction : Direction} {root : HierarchyItem}
    (h : p (.neighbours kind direction root) = p' (.neighbours kind direction root))
    (t : Timeouts) :
    (branch t kind root direction : Untimed _).run p
      = (branch t kind root direction : Untimed _).run p' := by
  simp only [branch, Untimed.run_bind, Untimed.run_ask, Provider.answer_congr h]
  cases Answer.reply (branchOperation kind direction) _ <;> rfl

/-! ## Answers that differ in some cells -/

/-- Two answers to one request: both say that it is malformed, or both have what is related. -/
inductive AnswersAlike {α : Type} (R : α → α → Prop) :
    Except MalformedInput α → Except MalformedInput α → Prop
  | malformed (e : MalformedInput) : AnswersAlike R (.error e) (.error e)
  | answered {a b : α} (h : R a b) : AnswersAlike R (.ok a) (.ok b)

theorem answersAlike_withTarget {α : Type} {R : α → α → Prop} (request : LookupRequest)
    (f : LookupTarget → Untimed α) (h : ∀ target, R ((f target).run p) ((f target).run p')) :
    AnswersAlike R ((withTarget request f).run p) ((withTarget request f).run p') := by
  rw [run_withTarget, run_withTarget]
  cases request.target with
  | error e => exact .malformed e
  | ok target => exact .answered (h target)

/-- Two rows of one place in the given document: only their previews differ. -/
def PreviewsDiffer (uri : String) (r r' : Row) : Prop :=
  ∃ (l : Location) (s s' : String), l.uri = uri ∧ r = locationRow l s ∧ r' = locationRow l s'

/-- Two rows of one symbol with the given anchor: only their hover texts differ. -/
def HoversDiffer (anchor : Position) (r r' : Row) : Prop :=
  ∃ (e : Symbol × Option Symbol) (s s' : String),
    e.1.anchor = anchor ∧ r = symbolRow e s ∧ r' = symbolRow e s'

theorem alike_locationTable (o : OutputLimits) (query : LocationQuery)
    {mayDiffer : Row → Row → Prop} {rows rows' : List Row}
    (h : List.Forall₂ (fun r r' => r = r' ∨ mayDiffer r r') rows rows') :
    Table.Alike o.fieldCharCap mayDiffer (locationTable o query rows)
      (locationTable o query rows') := by
  rw [locationTable, locationTable]
  cases isSampled query with
  | true => exact Table.alike_encodeSampled o _ h
  | false => exact Table.alike_encodeBounded o _ h

/-- One entry makes one row; rows of the same entries differ where what is added to them does. -/
theorem forall₂_zipWith_map {α : Type} {row : α → String → Row} {f f' : α → String}
    {mayDiffer : Row → Row → Prop} (entries : List α)
    (h : ∀ e, f e = f' e ∨ mayDiffer (row e (f e)) (row e (f' e))) :
    List.Forall₂ (fun r r' => r = r' ∨ mayDiffer r r')
      (List.zipWith row entries (entries.map f)) (List.zipWith row entries (entries.map f')) := by
  rw [List.zipWith_map_right, List.zipWith_map_right, List.zipWith_self, List.zipWith_self,
    List.forall₂_map_left_iff, List.forall₂_map_right_iff, List.forall₂_same]
  intro e _
  rcases h e with heq | hdiffer
  · exact .inl (congrArg (row e) heq)
  · exact .inr hdiffer

/-- **Reading a document concerns its previews.** -/
theorem alike_locationsAt (c : Config) (query : LocationQuery) (uri u : String)
    (target : LookupTarget) (h : p.AgreeOff (· = .document u) p') :
    Table.Alike c.output.fieldCharCap (PreviewsDiffer u)
      ((locationsAt c query uri target : Untimed _).run p)
      ((locationsAt c query uri target : Untimed _).run p') := by
  have hsymbols : p (.symbols uri) = p' (.symbols uri) := h _ (by simp)
  rw [run_locationsAt_eq_full, run_locationsAt_eq_full, fullLocationsAt, Untimed.run_bind,
    Untimed.run_bind, run_queryPoint_congr hsymbols]
  cases (queryPoint c.timeouts uri target : Untimed _).run p' with
  | none => exact Table.Alike.refl _
  | some point =>
    have hquery : p (.locations query uri point.position)
        = p' (.locations query uri point.position) := h _ (by simp)
    simp only [Untimed.run_bind, Untimed.run_ask, Provider.answer_congr hquery]
    cases Answer.reply query.label _ with
    | error fault => exact Table.Alike.refl _
    | ok found =>
      -- the places are the same, so row by row the previews are compared
      simp only [Untimed.run_bind, Untimed.run_pure, run_inTurn, List.map_map]
      refine alike_locationTable c.output query (forall₂_zipWith_map found fun l => ?_)
      by_cases hu : l.uri = u
      · exact .inr ⟨l, _, _, hu, rfl, rfl⟩
      · exact .inl (run_preview_congr (h _ (by simpa using hu)) _)

/-- **Asking for a hover text concerns its cells.** -/
theorem alike_documentSymbolsIn (c : Config) (uri u : String) (anchor : Position)
    (h : p.AgreeOff (· = .hover u anchor) p') :
    Table.Alike c.output.fieldCharCap (HoversDiffer anchor)
      ((documentSymbolsIn c uri : Untimed _).run p)
      ((documentSymbolsIn c uri : Untimed _).run p') := by
  have hsymbols : p (.symbols uri) = p' (.symbols uri) := h _ (by simp)
  rw [run_documentSymbolsIn_eq_full, run_documentSymbolsIn_eq_full, fullDocumentSymbolsIn,
    Untimed.run_bind, Untimed.run_bind, run_fetchSymbols, run_fetchSymbols,
    Provider.answer_congr hsymbols]
  cases Answer.reply "documentSymbol" _ with
  | error fault => exact Table.Alike.refl _
  | ok forest =>
    -- a symbol whose anchor is another one has its hover text from a question both answer alike
    simp only [Untimed.run_bind, Untimed.run_pure, run_inTurn, List.map_map]
    refine Table.alike_encodeBounded c.output _
      (forall₂_zipWith_map (Symbol.walk forest) fun e => ?_)
    by_cases ha : e.1.anchor = anchor
    · exact .inr ⟨e, _, _, ha, rfl, rfl⟩
    · exact .inl (run_hoverText_congr (h _ (by simp [ha])) c)

/-- The table of one side. -/
def HierarchyTables.side (t : HierarchyTables) : Direction → Table
  | .incoming => t.incoming
  | .outgoing => t.outgoing

/-- Two answers of the same kinds that are the same but for one side. -/
structure SidesAlike (direction : Direction) (t t' : HierarchyTables) : Prop where
  kind : ∀ side, (t.side side).kind = (t'.side side).kind
  same : ∀ side, side ≠ direction → t.side side = t'.side side

theorem SidesAlike.refl (direction : Direction) (t : HierarchyTables) :
    SidesAlike direction t t := ⟨fun _ => rfl, fun _ _ => rfl⟩

theorem kind_encodeBounded (o : OutputLimits) (kind : TableKind) (rows : List Row) :
    (Table.encodeBounded o kind rows).kind = kind := by
  rw [Table.encodeBounded, Table.truncate]
  split <;> rfl

/-- **Asking for a side concerns its table.** -/
theorem sidesAlike_hierarchyAt (c : Config) (kind : HierarchyKind) (direction : Direction)
    (uri : String) (target : LookupTarget)
    (h : p.AgreeOff (fun q => ∃ item, q = .neighbours kind direction item) p') :
    SidesAlike direction ((hierarchyAt c kind uri target : Untimed _).run p)
      ((hierarchyAt c kind uri target : Untimed _).run p') := by
  have hsymbols : p (.symbols uri) = p' (.symbols uri) := h _ (by simp)
  rw [hierarchyAt, Untimed.run_bind, Untimed.run_bind, run_queryPoint_congr hsymbols]
  cases (queryPoint c.timeouts uri target : Untimed _).run p' with
  | none => exact SidesAlike.refl _ _
  | some point =>
    have hprepare : p (.prepare kind uri point.position) = p' (.prepare kind uri point.position) :=
      h _ (by simp)
    simp only [Untimed.run_bind, run_traverse, Provider.answer_congr hprepare]
    rcases Answer.reply (prepareOperation kind) _ with (fault | roots)
    · cases fault <;> exact SidesAlike.refl _ _
    · cases roots with
      | nil => exact SidesAlike.refl _ _
      | cons root _ =>
        -- a side in another direction is asked for with a question that the providers agree on
        have hside : ∀ side, side ≠ direction →
            (branch c.timeouts kind root side : Untimed _).run p
              = (branch c.timeouts kind root side : Untimed _).run p' := by
          intro side hne
          exact run_branch_congr (h _ (by simp [hne])) c.timeouts
        -- the kind of a side is fixed before anything is asked about it
        refine ⟨?_, ?_⟩
        · rintro (_ | _) <;> exact (kind_encodeBounded _ _ _).trans (kind_encodeBounded _ _ _).symm
        · rintro (_ | _) hne
          · exact congrArg (fun edges => Table.encodeBounded c.output _ (edges.map (edgeRow kind)))
              (hside .incoming hne)
          · exact congrArg (fun edges => Table.encodeBounded c.output _ (edges.map (edgeRow kind)))
              (hside .outgoing hne)

/-- **Faults are isolated.** Take two providers that differ in one call at most, and no
cancellation. If the call reads a document, the answers to a query for places have the same rows
but for the previews of places in it. If it asks for the hover text at a position, the tables of
symbols have the same rows but for the hover texts of symbols with that anchor. If it asks for a
side of a hierarchy, the answers have the same table on the other side. -/
theorem fault_isolation (c : Config) (p p' : Provider) (t : Nat) :
    (∀ (query : LocationQuery) (request : LookupRequest) (u : String),
      p.AgreeOff (· = .document u) p' →
        AnswersAlike (Table.Alike c.output.fieldCharCap (PreviewsDiffer u))
          (locations (m := Timed) c query request ⟨p, none⟩ t).value
          (locations (m := Timed) c query request ⟨p', none⟩ t).value)
    ∧ (∀ (uri u : String) (anchor : Position), p.AgreeOff (· = .hover u anchor) p' →
        AnswersAlike (Table.Alike c.output.fieldCharCap (HoversDiffer anchor))
          (documentSymbols (m := Timed) c uri ⟨p, none⟩ t).value
          (documentSymbols (m := Timed) c uri ⟨p', none⟩ t).value)
    ∧ ∀ (kind : HierarchyKind) (direction : Direction) (request : LookupRequest),
        p.AgreeOff (fun q => ∃ item, q = .neighbours kind direction item) p' →
          AnswersAlike (SidesAlike direction)
            (hierarchy (m := Timed) c kind request ⟨p, none⟩ t).value
            (hierarchy (m := Timed) c kind request ⟨p', none⟩ t).value := by
  refine ⟨?_, ?_, ?_⟩
  · intro query request u h
    rw [timeless_locations c query request p t, timeless_locations c query request p' t]
    exact answersAlike_withTarget request _ fun target =>
      alike_locationsAt c query request.uri u target h
  · intro uri u anchor h
    rw [timeless_documentSymbols c uri p t, timeless_documentSymbols c uri p' t, documentSymbols]
    by_cases hblank : Text.isBlankText uri
    · rw [if_pos hblank]
      exact .malformed _
    · rw [if_neg hblank]
      exact .answered (alike_documentSymbolsIn c uri u anchor h)
  · intro kind direction request h
    rw [timeless_hierarchy c kind request p t, timeless_hierarchy c kind request p' t]
    exact answersAlike_withTarget request _ fun target =>
      sidesAlike_hierarchyAt c kind direction request.uri target h

/-- A function on one line. -/
def functionOn (name : String) (line : Nat) : Symbol :=
  ⟨name, .function, .point ⟨line, 0⟩, .point ⟨line, 0⟩, none, []⟩

/-- A function as an item of a hierarchy. -/
def functionItem (name : String) : HierarchyItem :=
  ⟨name, .function, "a", .point ⟨0, 0⟩, .point ⟨0, 0⟩, none, none⟩

/-- Two symbols that each have a hover text, two documents with a place each, and one neighbour on
each side of a hierarchy. -/
def twoOfEach : Provider
  | .symbols _ => ⟨some 0, .ok [functionOn "f" 0, functionOn "g" 1]⟩
  | .document uri => ⟨some 0, .ok uri⟩
  | .locations _ _ _ => ⟨some 0, .ok [⟨"a", .point ⟨0, 0⟩⟩, ⟨"b", .point ⟨0, 0⟩⟩]⟩
  | .hover _ p => ⟨some 0, .ok (some ⟨p.text, none⟩)⟩
  | .prepare _ _ _ => ⟨some 0, .ok [functionItem "f"]⟩
  | .neighbours _ .incoming _ => ⟨some 0, .ok [⟨functionItem "caller", []⟩]⟩
  | .neighbours _ .outgoing _ => ⟨some 0, .ok [⟨functionItem "callee", []⟩]⟩

/-- One call of each kind that is never answered costs its own cells: a preview, a hover text, the
table of a side. All other rows are whole. -/
theorem fault_isolation_silent :
    let request := LookupRequest.atPosition "a" ⟨0, 0⟩
    let unread := twoOfEach.silent fun | .document uri => uri == "a" | _ => false
    let unhovered := twoOfEach.silent fun | .hover uri p => uri == "a" && p == ⟨0, 0⟩ | _ => false
    let uncalled := twoOfEach.silent fun | .neighbours .call .incoming _ => true | _ => false
    let places := fun p => (locations (m := Timed) {} .references request ⟨p, none⟩ 0).value
    let symbols := fun p => (documentSymbols (m := Timed) {} "a" ⟨p, none⟩ 0).value
    let calls := fun p => (hierarchy (m := Timed) {} .call request ⟨p, none⟩ 0).value
    AnswersAlike (Table.Alike 200 (PreviewsDiffer "a")) (places twoOfEach) (places unread)
      ∧ AnswersAlike (Table.Alike 200 (HoversDiffer ⟨0, 0⟩)) (symbols twoOfEach) (symbols unhovered)
      ∧ AnswersAlike (SidesAlike .incoming) (calls twoOfEach) (calls uncalled)
      ∧ (places unread).map Table.rows = .ok ["a | 0:0-0:0 |  | EOL", "b | 0:0-0:0 | b | EOL"]
      ∧ (symbols unhovered).map Table.rows
          = .ok ["f | function | 0:0-0:0 | 0:0-0:0 |  |  | EOL",
              "g | function | 1:0-1:0 | 1:0-1:0 |  | 1:0 | EOL"]
      ∧ (calls uncalled).map (fun t => (t.incoming.rows, t.outgoing.rows))
          = .ok ([], ["callee | function | a | 0:0-0:0 |  | EOL"]) := by
  intro request unread unhovered uncalled places symbols calls
  have hread : twoOfEach.AgreeOff (· = .document "a") unread := by
    refine Provider.agreeOff_silent _ fun q hq => ?_
    cases q with
    | document uri => rw [eq_of_beq hq]
    | _ => cases hq
  have hhover : twoOfEach.AgreeOff (· = .hover "a" ⟨0, 0⟩) unhovered := by
    refine Provider.agreeOff_silent _ fun q hq => ?_
    cases q with
    | hover uri p =>
      obtain ⟨huri, hp⟩ := Bool.and_eq_true_iff.mp hq
      rw [eq_of_beq huri, eq_of_beq hp]
    | _ => cases hq
  have hcall : twoOfEach.AgreeOff (fun q => ∃ item, q = .neighbours .call .incoming item)
      uncalled := by
    refine Provider.agreeOff_silent _ fun q hq => ?_
    cases q with
    | neighbours kind direction item =>
      cases kind <;> cases direction
      · exact ⟨item, rfl⟩
      all_goals cases hq
    | _ => cases hq
  refine ⟨(fault_isolation {} _ _ 0).1 .references request "a" hread,
    (fault_isolation {} _ _ 0).2.1 "a" "a" ⟨0, 0⟩ hhover,
    (fault_isolation {} _ _ 0).2.2 .call .incoming request hcall, ?_, ?_, ?_⟩
  · decide +kernel
  · decide +kernel
  · decide +kernel

end Lookup

end SymbolQuery
