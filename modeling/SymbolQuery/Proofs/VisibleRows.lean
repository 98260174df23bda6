/-
Work that is skipped because its rows are not shown.

A table of places reads only the documents of the rows that it is going to show, each
document once, and a table of symbols asks for the hover texts of such rows only. The
lookups of this file skip nothing: they read the document of every place anew and ask
for every hover text. Both kinds of lookup give the same table.

Two things make this so. A table depends on its rows only through their number and
the rows that it shows, and `visibleRows` is that number of rows. And reading a
document again gives what reading it the first time gave, even if that was nothing.
-/
import SymbolQuery.Proofs.Untimed

set_option autoImplicit false

namespace SymbolQuery

/-! ## What a table depends on -/

namespace Table

/-- No more rows are visible than there are. -/
theorem visibleRows_le (o : OutputLimits) (total : Nat) (sampled : Bool) :
    visibleRows o total sampled ≤ total := by
  unfold visibleRows
  split
  · exact Nat.min_le_right _ _
  · exact Nat.min_le_left _ _

/-- A table that was not cut before shows no row beyond the limit. -/
theorem encodeBounded_congr (o : OutputLimits) (kind : TableKind) {rows others : List Row}
    (hlen : rows.length = others.length)
    (hshown : rows.take o.maxRows = others.take o.maxRows) :
    encodeBounded o kind rows = encodeBounded o kind others := by
  -- a table that fits shows all its rows, any other one shows the first of them and a notice
  by_cases hfit : rows.length ≤ o.maxRows
  · have hrows : rows = others := by
      rw [← List.take_of_length_le hfit, hshown, List.take_of_length_le (hlen ▸ hfit)]
    rw [hrows]
  · have hcut : o.maxRows < rows.length := Nat.not_le.mp hfit
    rw [encodeBounded_of_lt hcut, encodeBounded_of_lt (hlen ▸ hcut), hshown, hlen]

/-- A sampled table shows no row beyond its sample, and one below the ceiling is a bounded one. -/
theorem encodeSampled_congr (o : OutputLimits) (kind : TableKind) {rows others : List Row}
    (hlen : rows.length = others.length)
    (hshown : rows.take (visibleRows o rows.length true)
      = others.take (visibleRows o rows.length true)) :
    encodeSampled o kind rows = encodeSampled o kind others := by
  by_cases hceiling : rows.length ≤ o.samplingCeiling
  · rw [encodeSampled_of_le hceiling, encodeSampled_of_le (hlen ▸ hceiling)]
    refine encodeBounded_congr o kind hlen ?_
    -- the limit and the number of visible rows differ only beyond the last row
    rw [visibleRows_of_le hceiling] at hshown
    rw [List.take_eq_take_min, List.take_eq_take_min (l := others), ← hlen, Nat.min_comm]
    exact hshown
  · have hmany : o.samplingCeiling < rows.length := Nat.not_le.mp hceiling
    rw [visibleRows_of_lt hmany] at hshown
    rw [encodeSampled_of_lt hmany, encodeSampled_of_lt (hlen ▸ hmany), ← hlen, hshown]

end Table

namespace Lookup

/-- **Invisible rows do not count.** A table of places depends on the number of its rows and on
the visible ones. -/
theorem locationTable_congr (o : OutputLimits) (query : LocationQuery) {rows others : List Row}
    (hlen : rows.length = others.length)
    (hshown : rows.take (Table.visibleRows o rows.length (isSampled query))
      = others.take (Table.visibleRows o rows.length (isSampled query))) :
    locationTable o query rows = locationTable o query others := by
  rw [locationTable, locationTable]
  cases hsampled : isSampled query with
  | true =>
    rw [hsampled] at hshown
    exact Table.encodeSampled_congr o .locations hlen hshown
  | false =>
    rw [hsampled, Table.visibleRows_unsampled] at hshown
    refine Table.encodeBounded_congr o .locations hlen ?_
    rw [List.take_eq_take_min, List.take_eq_take_min (l := others), ← hlen, Nat.min_comm]
    exact hshown

/-! ## Lookups that skip nothing -/

section Full

variable {m : Type → Type} [Asking m]

/-- Does things one after the other. -/
def inTurn {α : Type} : List (m α) → m (List α)
  | [] => return []
  | x :: rest => do
    let a ← x
    let more ← inTurn rest
    return a :: more

/-- The places for a target, with the document of every place read for that place alone. -/
def fullLocationsAt (c : Config) (query : LocationQuery) (uri : String) (target : LookupTarget) :
    m Table := do
  match ← queryPoint c.timeouts uri target with
  | none => return Table.empty .locations
  | some point => do
    let a ← Asking.ask (locationDeadline c.timeouts query) (.locations query uri point.position)
    match Answer.reply query.label a with
    | .error fault => degrade .locations fault
    | .ok found => do
      let shown ← inTurn (found.map fun l =>
        preview c.timeouts.preview l.uri l.range.start.line)
      return locationTable c.output query (List.zipWith locationRow found shown)

/-- The places for a request, with nothing skipped. -/
def fullLocations (c : Config) (query : LocationQuery) (request : LookupRequest) :
    m (Except MalformedInput Table) :=
  withTarget request (fullLocationsAt c query request.uri)

/-- The symbols of a document, each with its hover text, shown or not. -/
def fullDocumentSymbolsIn (c : Config) (uri : String) : m Table := do
  match ← fetchSymbols c.timeouts.symbols uri with
  | .error fault => degrade .documentSymbols fault
  | .ok forest => do
    let walked := Symbol.walk forest
    let hovers ← inTurn (walked.map fun e => hoverText c uri e.1.anchor)
    return Table.encodeBounded c.output .documentSymbols (List.zipWith symbolRow walked hovers)

/-- The symbols of a document, with nothing skipped. -/
def fullDocumentSymbols (c : Config) (uri : String) : m (Except MalformedInput Table) :=
  if Text.isBlankText uri then return .error .missingUri
  else do
    let t ← fullDocumentSymbolsIn c uri
    return .ok t

end Full

@[simp] theorem run_inTurn {α : Type} (p : Provider) (xs : List (Untimed α)) :
    (inTurn xs : Untimed (List α)).run p = xs.map fun x => x.run p := by
  induction xs with
  | nil => rfl
  | cons x xs ih =>
    rw [List.map_cons, ← ih]
    rfl

theorem timeless_inTurn {α γ : Type} {f : γ → Timed α} {g : γ → Untimed α}
    (h : ∀ c, Timeless (f c) (g c)) (cs : List γ) :
    Timeless (inTurn (cs.map f)) (inTurn (cs.map g)) := by
  induction cs with
  | nil => exact .pure []
  | cons c cs ih => exact .bind (h c) fun _ => .bind ih fun _ => .pure _

theorem timeless_fullLocationsAt (c : Config) (query : LocationQuery) (uri : String)
    (target : LookupTarget) :
    Timeless (fullLocationsAt c query uri target) (fullLocationsAt c query uri target) := by
  refine .bind (timeless.queryPoint c.timeouts uri target) ?_
  rintro (_ | point)
  · exact .pure _
  · refine .bind (.ask _ _) fun a => ?_
    cases Answer.reply query.label a with
    | error fault => exact timeless.degrade _ fault
    | ok found =>
      have hpreview : ∀ l : Location,
          Timeless (preview c.timeouts.preview l.uri l.range.start.line)
            (preview c.timeouts.preview l.uri l.range.start.line) :=
        fun l => timeless.preview _ l.uri _
      exact .bind (timeless_inTurn hpreview found) fun _ => .pure _

theorem timeless_fullDocumentSymbolsIn (c : Config) (uri : String) :
    Timeless (fullDocumentSymbolsIn c uri) (fullDocumentSymbolsIn c uri) := by
  refine .bind (timeless.fetchSymbols c.timeouts.symbols uri) ?_
  rintro (fault | forest)
  · exact timeless.degrade _ fault
  · have hhover : ∀ e : Symbol × Option Symbol,
        Timeless (hoverText c uri e.1.anchor) (hoverText c uri e.1.anchor) :=
      fun e => timeless.hoverText c uri e.1.anchor
    exact .bind (timeless_inTurn hhover _) fun _ => .pure _

theorem timeless_fullLocations (c : Config) (query : LocationQuery) (request : LookupRequest) :
    Timeless (fullLocations c query request) (fullLocations c query request) :=
  timeless.withTarget request (timeless_fullLocationsAt c query request.uri)

theorem timeless_fullDocumentSymbols (c : Config) (uri : String) :
    Timeless (fullDocumentSymbols c uri) (fullDocumentSymbols c uri) := by
  rw [fullDocumentSymbols, fullDocumentSymbols]
  by_cases hblank : Text.isBlankText uri
  · rw [if_pos hblank, if_pos hblank]
    exact .pure _
  · rw [if_neg hblank, if_neg hblank]
    exact .bind (timeless_fullDocumentSymbolsIn c uri) fun _ => .pure _

/-! ## Reading once is enough -/

/-- The text around a place is cut out of the text of its document. -/
theorem run_preview (deadline : Nat) (l : Location) (p : Provider) :
    (preview deadline l.uri l.range.start.line : Untimed String).run p
      = previewIn ((document deadline l.uri : Untimed _).run p) l := by
  rw [preview, Untimed.run_bind]
  cases (document deadline l.uri : Untimed _).run p <;> rfl

/-- **The cache is transparent.** If what was read before is what reading gives, each place gets
the text that it would get alone. -/
theorem run_previewsFrom (deadline : Nat) (p : Provider) (ls : List Location)
    (read : List (String × Option String))
    (hread : ∀ uri text, read.lookup uri = some text →
      text = (document deadline uri : Untimed _).run p) :
    (previewsFrom deadline read ls : Untimed (List String)).run p
      = ls.map fun l => (preview deadline l.uri l.range.start.line : Untimed String).run p := by
  induction ls generalizing read with
  | nil => rfl
  | cons l rest ih =>
    rw [previewsFrom, List.map_cons, run_preview]
    cases hl : read.lookup l.uri with
    | some text =>
      rw [Untimed.run_bind, Untimed.run_pure, ih read hread, ← hread l.uri text hl]
    | none =>
      -- the document is read now, so the entry made for it is what reading gives
      have hread' : ∀ uri text,
          ((l.uri, (document deadline l.uri : Untimed _).run p) :: read).lookup uri = some text →
            text = (document deadline uri : Untimed _).run p := by
        intro uri text h
        rw [List.lookup_cons] at h
        by_cases huri : uri = l.uri
        · rw [huri, beq_self_eq_true] at h
          rw [huri]
          exact (Option.some.inj h).symm
        · rw [beq_eq_false_iff_ne.mpr huri] at h
          exact hread uri text h
      rw [Untimed.run_bind, Untimed.run_bind, Untimed.run_pure, ih _ hread']

/-- The previews up to a limit are those of the first places, and empty beyond. -/
theorem run_previews (deadline : Nat) (p : Provider) (ls : List Location) (limit : Nat) :
    (previews deadline ls limit : Untimed (List String)).run p
      = (ls.map fun l =>
            (preview deadline l.uri l.range.start.line : Untimed String).run p).take limit
          ++ List.replicate (ls.length - limit) "" := by
  have hnone : ∀ uri text, ([] : List (String × Option String)).lookup uri = some text →
      text = (document deadline uri : Untimed _).run p := by
    intro uri text h
    exact absurd h (by simp)
  rw [previews, Untimed.run_bind, Untimed.run_pure, run_previewsFrom deadline p _ [] hnone,
    List.map_take]

/-! ## The tables agree -/

/-- The rows of places whose previews stop at the visible rows make the same table as those with
all previews. -/
theorem locationTable_previews (o : OutputLimits) (query : LocationQuery) (found : List Location)
    (all : List String) (hall : all.length = found.length) :
    let visible := Table.visibleRows o found.length (isSampled query)
    locationTable o query (List.zipWith locationRow found
        (all.take visible ++ List.replicate (found.length - visible) ""))
      = locationTable o query (List.zipWith locationRow found all) := by
  intro visible
  -- both lists of previews are as long as the places, so rows and places come in pairs
  have hvisible : visible ≤ found.length := Table.visibleRows_le o _ _
  have hcut : (all.take visible ++ List.replicate (found.length - visible) "").length
      = found.length := by
    rw [List.length_append, List.length_take, List.length_replicate]
    omega
  have hlen : (List.zipWith locationRow found
      (all.take visible ++ List.replicate (found.length - visible) "")).length = found.length := by
    rw [List.length_zipWith, hcut, Nat.min_self]
  refine locationTable_congr o query ?_ ?_
  · rw [hlen, List.length_zipWith, hall, Nat.min_self]
  · rw [hlen, List.take_zipWith, List.take_zipWith,
      List.take_append_of_le_length (by rw [List.length_take]; omega), List.take_take,
      Nat.min_self]

theorem run_locationsAt_eq_full (c : Config) (query : LocationQuery) (uri : String)
    (target : LookupTarget) (p : Provider) :
    (locationsAt c query uri target : Untimed Table).run p
      = (fullLocationsAt c query uri target : Untimed Table).run p := by
  rw [locationsAt, fullLocationsAt, Untimed.run_bind, Untimed.run_bind]
  cases (queryPoint c.timeouts uri target : Untimed _).run p with
  | none => rfl
  | some point =>
    simp only [Untimed.run_bind]
    cases Answer.reply query.label _ with
    | error fault => rfl
    | ok found =>
      simp only [Untimed.run_bind, Untimed.run_pure, run_previews, run_inTurn, List.map_map]
      exact locationTable_previews c.output query found _ (List.length_map _)

/-- The row of a symbol gets its hover text, the empty text if there is none. -/
theorem symbolRows_eq_zipWith (es : List (Symbol × Option Symbol)) (hovers : List String) :
    symbolRows es hovers
      = List.zipWith symbolRow es (hovers ++ List.replicate (es.length - hovers.length) "") := by
  induction es generalizing hovers with
  | nil => rw [symbolRows, List.zipWith_nil_left]
  | cons e es ih =>
    cases hovers with
    | nil =>
      rw [symbolRows, ih, List.nil_append, List.nil_append, List.length_nil, List.length_cons,
        Nat.sub_zero, Nat.sub_zero, List.replicate_succ, List.zipWith_cons_cons]
    | cons h hovers =>
      rw [symbolRows, ih, List.cons_append, List.zipWith_cons_cons, List.length_cons,
        List.length_cons, Nat.add_sub_add_right]

/-- Hover texts beyond the limit of rows do not change the table of symbols. -/
theorem encodeBounded_symbolRows (o : OutputLimits) (es : List (Symbol × Option Symbol))
    (hover : Symbol × Option Symbol → String) :
    Table.encodeBounded o .documentSymbols (symbolRows es ((es.take o.maxRows).map hover))
      = Table.encodeBounded o .documentSymbols (List.zipWith symbolRow es (es.map hover)) := by
  rw [symbolRows_eq_zipWith, List.length_map, List.length_take, List.map_take]
  refine Table.encodeBounded_congr o _ ?_ ?_
  · rw [List.length_zipWith, List.length_zipWith, List.length_append, List.length_take,
      List.length_map, List.length_replicate]
    omega
  · rw [List.take_zipWith, List.take_zipWith]
    -- either all symbols are shown and have their texts, or the limit cuts both sides alike
    by_cases hfit : es.length ≤ o.maxRows
    · have hall : (es.map hover).take o.maxRows = es.map hover :=
        List.take_of_length_le (by rwa [List.length_map])
      rw [hall, Nat.min_eq_right hfit, Nat.sub_self, List.replicate_zero, List.append_nil, hall]
    · rw [List.take_append_of_le_length (by rw [List.length_take, List.length_map]; omega),
        List.take_take, Nat.min_self]

theorem run_documentSymbolsIn_eq_full (c : Config) (uri : String) (p : Provider) :
    (documentSymbolsIn c uri : Untimed Table).run p
      = (fullDocumentSymbolsIn c uri : Untimed Table).run p := by
  rw [documentSymbolsIn, fullDocumentSymbolsIn, Untimed.run_bind, Untimed.run_bind]
  cases (fetchSymbols c.timeouts.symbols uri : Untimed _).run p with
  | error fault => rfl
  | ok forest =>
    simp only [Untimed.run_bind, Untimed.run_pure, Untimed.run_window, run_inTurn, List.map_map]
    exact encodeBounded_symbolRows c.output (Symbol.walk forest) _

/-- **Skipping invisible work is invisible.** With any settings and any provider, as long as
nothing is cancelled, the tables of places are those with a preview of its own for every place,
and the table of symbols is the one with the hover text of every symbol. -/
theorem tables_eq_full (c : Config) (p : Provider) (t : Nat) :
    (∀ (query : LocationQuery) (request : LookupRequest),
      (locations (m := Timed) c query request ⟨p, none⟩ t).value
        = (fullLocations (m := Timed) c query request ⟨p, none⟩ t).value)
    ∧ ∀ uri : String,
      (documentSymbols (m := Timed) c uri ⟨p, none⟩ t).value
        = (fullDocumentSymbols (m := Timed) c uri ⟨p, none⟩ t).value := by
  constructor
  · intro query request
    rw [timeless_locations c query request p t, timeless_fullLocations c query request p t,
      locations, fullLocations, withTarget, withTarget]
    cases request.target with
    | error e => rfl
    | ok target => rw [Untimed.run_bind, Untimed.run_bind, run_locationsAt_eq_full]
  · intro uri
    rw [timeless_documentSymbols c uri p t, timeless_fullDocumentSymbols c uri p t,
      documentSymbols, fullDocumentSymbols]
    by_cases hblank : Text.isBlankText uri
    · rw [if_pos hblank, if_pos hblank]
    · rw [if_neg hblank, if_neg hblank, Untimed.run_bind, Untimed.run_bind,
        run_documentSymbolsIn_eq_full]

end Lookup

end SymbolQuery
