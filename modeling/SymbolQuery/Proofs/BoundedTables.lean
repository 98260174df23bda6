/-
How large a table may be.

What a lookup shows is bounded by the output limits alone. Escaping writes at most two
characters for one, and it is done after a field was cut to its cap, so the cap bounds
every cell, whatever a field is made of. A table of limited rows shows no more rows than
its limit, with one notice behind them, and the limit is the one for rows or the size of
a sample.

Each lookup ends with a table that was made in one of four ways, of rows with as many
fields as the kind of the table has columns. Nothing else of a lookup matters, so the
bound holds of all its conversations.
-/
import SymbolQuery.Proofs.Conversations
import SymbolQuery.Proofs.TableEdits

set_option autoImplicit false

namespace SymbolQuery

namespace Table

/-! ## Lines of rows -/

/-- Escaping at most doubles a text. -/
theorem length_escape_le (s : List Char) : (escape s).length ≤ 2 * s.length := by
  fun_induction escape s with
  | case1 => exact Nat.le_refl 0
  | case2 rest ih | case3 rest ih | case4 rest ih | case5 rest _ ih | case6 rest ih
  | case7 c rest _ _ _ _ _ ih =>
    simp only [List.length_cons]
    omega

theorem length_cell_le (cap : Nat) (field : List Char) : (cell cap field).length ≤ 2 * cap := by
  have hescape := length_escape_le (field.take cap)
  have htake := List.length_take_le cap field
  unfold cell
  omega

/-- Each cell comes with a delimiter, except one. -/
theorem length_joinCells_le {width : Nat} {cells : List (List Char)} (hne : cells ≠ [])
    (h : ∀ c ∈ cells, c.length ≤ width) :
    (joinCells cells).length + 3 ≤ cells.length * (width + 3) := by
  fun_induction joinCells cells with
  | case1 => exact absurd rfl hne
  | case2 c =>
    have hc : c.length ≤ width := h c List.mem_cons_self
    rw [List.length_singleton]
    omega
  | case3 c d rest ih =>
    have hc : c.length ≤ width := h c List.mem_cons_self
    have hrest := ih (List.cons_ne_nil d rest) fun e he => h e (List.mem_cons_of_mem c he)
    have hdelimiter : delimiter.length = 3 := rfl
    rw [List.length_append, List.length_append, hdelimiter, List.length_cons, Nat.add_one_mul]
    omega

/-- **The line of a row is bounded by its number of fields.** -/
theorem length_encodeRow_le (cap : Nat) {row : Row} (hne : row ≠ []) :
    (encodeRow cap row).length ≤ row.length * (2 * cap + 3) + 3 := by
  have hcells : ∀ c ∈ (row.map String.toList).map (cell cap), c.length ≤ 2 * cap := by
    intro c hc
    obtain ⟨field, _, rfl⟩ := List.mem_map.mp hc
    exact length_cell_le cap field
  have hjoined := length_joinCells_le (by simpa using hne) hcells
  rw [List.length_map, List.length_map] at hjoined
  have hmark : (delimiter ++ endMark).length = 6 := rfl
  rw [encodeRow, encodeChars, terminate, String.length_ofList, List.append_assoc,
    List.length_append, hmark]
  omega

/-! ## Rows and notices -/

/-- A text without bars is read as one cell. -/
theorem isChain_guarded_of_not_mem {s : List Char} (h : '|' ∉ s) : s.IsChain Guarded := by
  induction s with
  | nil => exact .nil
  | cons c s ih =>
    refine List.isChain_cons.mpr ⟨?_, ih (List.not_mem_of_not_mem_cons h)⟩
    rintro d hd rfl
    exact absurd (List.mem_of_mem_head? hd) (List.not_mem_of_not_mem_cons h)

/-- A notice is a line of one cell. -/
theorem splitCells_of_isNotice {total shown : Nat} {line : String} (h : IsNotice total shown line) :
    (splitCells line.toList).length = 2 := by
  have hone : ∀ s : List Char, s.IsChain Guarded → (splitCells (terminate s)).length = 2 := by
    intro s hs
    rw [terminate, splitCells_append_delimiter s endMark hs]
    rfl
  cases h with
  | hidden =>
    rw [hiddenNotice, String.toList_ofList]
    apply hone
    apply isChain_guarded_of_not_mem
    -- the words of the notice hold no bar, and neither do its numbers
    have hdigits : ∀ n : Nat, '|' ∉ n.repr.toList := by
      intro n hn
      rw [Nat.toList_repr] at hn
      exact absurd (Nat.isDigit_of_mem_toDigits (by omega) (by omega) hn) (by decide)
    simp only [toString, String.toList_append, List.mem_append, not_or]
    exact ⟨⟨⟨hdigits _, by decide⟩, hdigits _⟩, by decide⟩
  | sample =>
    rw [sampleNotice, noticeLine, String.toList_ofList]
    exact hone _ (isChain_guarded_escape _)

/-- The line of a row with two fields or more is no notice. -/
theorem not_isNotice_encodeRow (cap : Nat) {row : Row} (h : 1 < row.length) (total shown : Nat) :
    ¬ IsNotice total shown (encodeRow cap row) := by
  intro hnotice
  have hcells := splitCells_of_isNotice hnotice
  rw [splitCells_encodeRow cap row (List.ne_nil_of_length_pos (by omega)), List.length_append,
    List.length_map, List.length_singleton] at hcells
  omega

/-! ## Tables -/

/-- The most rows that a table shows besides a notice. -/
def rowLimit (o : OutputLimits) : Nat := max (max o.maxRows o.sampleSize) 1

/-- **A table within the limits.** It shows rows of its kind and at most one notice behind them. -/
structure IsBounded (o : OutputLimits) (t : Table) : Prop where
  length_le : t.rows.length ≤ rowLimit o + 1
  parts : ∃ (shown : List Row) (total : Nat) (notices : List String),
    t.rows = shown.map (encodeRow o.fieldCharCap) ++ notices
    ∧ notices.length ≤ 1 ∧ (∀ line ∈ notices, IsNotice total shown.length line)
    ∧ ∀ row ∈ shown, row.length = t.kind.columns.length
      ∧ (encodeRow o.fieldCharCap row).length
          ≤ t.kind.columns.length * (2 * o.fieldCharCap + 3) + 3
      ∧ ∀ total' shown', ¬ IsNotice total' shown' (encodeRow o.fieldCharCap row)

/-- The rows have a field for each column of a kind. -/
def Fill (kind : TableKind) (rows : List Row) : Prop :=
  ∀ row ∈ rows, row.length = kind.columns.length

theorem one_lt_length_columns (kind : TableKind) : 1 < kind.columns.length := by
  cases kind <;> decide

section

variable {o : OutputLimits} {kind : TableKind} {rows : List Row}

theorem IsBounded.of_parts {t : Table} (shown : List Row) (total : Nat) (notices : List String)
    (hfill : Fill t.kind shown) (hshown : shown.length ≤ rowLimit o)
    (hrows : t.rows = shown.map (encodeRow o.fieldCharCap) ++ notices)
    (hnotices : notices.length ≤ 1) (hnotice : ∀ line ∈ notices, IsNotice total shown.length line) :
    IsBounded o t := by
  refine ⟨?_, shown, total, notices, hrows, hnotices, hnotice, ?_⟩
  · rw [hrows, List.length_append, List.length_map]
    omega
  · intro row hrow
    have hcolumns := hfill row hrow
    have hmany : 1 < row.length := hcolumns ▸ one_lt_length_columns t.kind
    refine ⟨hcolumns, ?_, not_isNotice_encodeRow _ hmany⟩
    rw [← hcolumns]
    exact length_encodeRow_le _ (List.ne_nil_of_length_pos (by omega))

theorem isBounded_empty (o : OutputLimits) (kind : TableKind) : IsBounded o (empty kind) :=
  .of_parts [] 0 [] (List.forall_mem_nil _) (Nat.zero_le _) rfl
    (Nat.zero_le _) (List.forall_mem_nil _)

/-- A table that is not cut is within the limits if it has few enough rows. -/
theorem isBounded_encode (hfill : Fill kind rows) (hfew : rows.length ≤ rowLimit o) :
    IsBounded o (encode o kind rows) :=
  .of_parts rows 0 [] hfill hfew (List.append_nil _).symm
    (Nat.zero_le _) (List.forall_mem_nil _)

theorem isBounded_encodeBounded (hfill : Fill kind rows) :
    IsBounded o (encodeBounded o kind rows) := by
  by_cases hfits : rows.length ≤ o.maxRows
  · rw [encodeBounded_of_le hfits]
    exact isBounded_encode hfill (by unfold rowLimit; omega)
  · rw [encodeBounded_of_lt (Nat.not_le.mp hfits)]
    have hlength : (rows.take o.maxRows).length = o.maxRows := by
      rw [List.length_take]
      omega
    refine .of_parts (rows.take o.maxRows) rows.length
      [hiddenNotice (rows.length - o.maxRows) rows.length] ?_ ?_ rfl (Nat.le_refl 1) ?_
    · exact fun row hrow => hfill row (List.mem_of_mem_take hrow)
    · rw [hlength]
      unfold rowLimit
      omega
    · intro line hline
      rw [List.mem_singleton.mp hline, hlength]
      exact .hidden

theorem isBounded_encodeSampled (hfill : Fill kind rows) :
    IsBounded o (encodeSampled o kind rows) := by
  by_cases hceiling : rows.length ≤ o.samplingCeiling
  · rw [encodeSampled_of_le hceiling]
    exact isBounded_encodeBounded hfill
  · rw [encodeSampled_of_lt (Nat.not_le.mp hceiling)]
    have hlength : (rows.take (min o.sampleSize rows.length)).length
        = min o.sampleSize rows.length := by
      rw [List.length_take]
      omega
    refine .of_parts (rows.take (min o.sampleSize rows.length)) rows.length _ ?_ ?_ rfl
      (Nat.le_refl 1) ?_
    · exact fun row hrow => hfill row (List.mem_of_mem_take hrow)
    · rw [hlength]
      unfold rowLimit
      omega
    · intro line hline
      rw [List.mem_singleton.mp hline, hlength]
      exact .sample

end

end Table

/-! ## Lookups -/

namespace Lookup

open Table

/-- All tables of the answer are within the limits. -/
def AreBounded (o : OutputLimits) (found : Except MalformedInput Finding) : Prop :=
  ∀ t ∈ tablesOf found, t.IsBounded o

variable {c : Config} {uri : String} {target : LookupTarget}

theorem fill_map {α : Type} {kind : TableKind} {row : α → Row}
    (h : ∀ a, (row a).length = kind.columns.length) (as : List α) : Fill kind (as.map row) := by
  intro r hr
  obtain ⟨a, _, rfl⟩ := List.mem_map.mp hr
  exact h a

theorem fill_locationRows (found : List Location) (shown : List String) :
    Fill .locations (List.zipWith locationRow found shown) := by
  rw [← List.map_uncurry_zip_eq_zipWith]
  exact fill_map (fun _ => by rfl) _

theorem fill_symbolRows (walked : List (Symbol × Option Symbol)) (hovers : List String) :
    Fill .documentSymbols (symbolRows walked hovers) := by
  fun_induction symbolRows walked hovers with
  | case1 => exact List.forall_mem_nil _
  | case2 e rest ih => exact List.forall_mem_cons.mpr ⟨rfl, ih⟩
  | case3 e rest h hovers ih => exact List.forall_mem_cons.mpr ⟨rfl, ih⟩

/-- The rows of a side have the columns of its table, in both hierarchies. -/
theorem fill_edgeRows (kind : HierarchyKind) (edges : List Edge) :
    Fill (sideKinds kind).1 (edges.map (edgeRow kind))
      ∧ Fill (sideKinds kind).2 (edges.map (edgeRow kind)) := by
  cases kind <;> exact ⟨fill_map (fun _ => by rfl) edges, fill_map (fun _ => by rfl) edges⟩

theorem isBounded_locationTable (o : OutputLimits) (query : LocationQuery) {rows : List Row}
    (hfill : Fill .locations rows) : (locationTable o query rows).IsBounded o := by
  cases query with
  | references => exact isBounded_encodeSampled hfill
  | definition | declaration | typeDefinition | implementation =>
    exact isBounded_encodeBounded hfill

theorem isBounded_degrade (kind : TableKind) (fault : CallFault) :
    Talk.Says (degrade kind fault) fun _ t => t.IsBounded c.output :=
  .last fun _ => .pure (isBounded_empty _ kind)

theorem isBounded_locationsAt (query : LocationQuery) :
    Talk.Says (locationsAt c query uri target) fun _ t => t.IsBounded c.output := by
  refine .last ?_
  rintro (_ | point)
  · exact .pure (isBounded_empty _ _)
  · refine .last fun a => ?_
    cases Answer.reply query.label a with
    | error fault => exact isBounded_degrade _ fault
    | ok found =>
      exact .last fun shown =>
        .pure (isBounded_locationTable _ query (fill_locationRows found shown))

/-- The one row of a hover text is not cut. -/
theorem isBounded_hoverAt :
    Talk.Says (hoverAt c uri target) fun _ t => t.IsBounded c.output := by
  have hone : ∀ name range contents : String,
      (encode c.output .hover [[name, range, contents]]).IsBounded c.output := fun _ _ _ =>
    isBounded_encode (List.forall_mem_singleton.mpr rfl) (Nat.le_max_right _ _)
  refine .last ?_
  rintro (_ | point)
  · exact .pure (isBounded_empty _ _)
  · refine .last fun a => ?_
    rcases Answer.reply "hover" a with (fault | (_ | h))
    · exact isBounded_degrade _ fault
    · exact .pure (isBounded_empty _ _)
    · cases point.symbol with
      | some s => exact .last fun _ => .pure (hone _ _ _)
      | none => exact .last fun _ => .last fun _ => .pure (hone _ _ _)

theorem isBounded_documentSymbolsIn :
    Talk.Says (documentSymbolsIn c uri) fun _ t => t.IsBounded c.output := by
  refine .last ?_
  rintro (fault | forest)
  · exact isBounded_degrade _ fault
  · exact .last fun hovers => .pure (isBounded_encodeBounded (fill_symbolRows _ hovers))

theorem isBounded_childrenOf (depth : ChildDepth) :
    Talk.Says (childrenOf c uri depth target) fun _ t => t.IsBounded c.output := by
  refine .last fun r => .last ?_
  rintro (_ | s)
  · exact .pure (isBounded_empty _ _)
  · exact .pure (isBounded_encodeBounded (fill_map (fun _ => by rfl) _))

theorem isBounded_hierarchyAt (kind : HierarchyKind) :
    Talk.Says (hierarchyAt c kind uri target) fun _ t =>
      t.incoming.IsBounded c.output ∧ t.outgoing.IsBounded c.output := by
  have hempty : (HierarchyTables.empty kind).incoming.IsBounded c.output
      ∧ (HierarchyTables.empty kind).outgoing.IsBounded c.output :=
    ⟨isBounded_empty _ _, isBounded_empty _ _⟩
  refine .last ?_
  rintro (_ | point)
  · exact .pure hempty
  · refine .last ?_
    rintro (_ | r)
    · exact .pure hempty
    · exact .pure ⟨isBounded_encodeBounded (fill_edgeRows r.kind r.incoming).1,
        isBounded_encodeBounded (fill_edgeRows r.kind r.outgoing).2⟩

/-- A malformed request gives no table, and any other what its target gives. -/
theorem areBounded_withTarget {α : Type} (request : LookupRequest) {f : LookupTarget → Talk α}
    {g : α → Finding}
    (h : ∀ target, Talk.Says (f target) fun _ a => ∀ t ∈ (g a).tables, t.IsBounded c.output) :
    Talk.Says (withTarget request f >>= fun a => Pure.pure (a.map g)) fun _ found =>
      AreBounded c.output found := by
  refine .bind (P := fun _ a => AreBounded c.output (a.map g)) ?_ fun _ _ hfound => .pure hfound
  rw [withTarget]
  cases request.target with
  | error e => exact .pure (List.forall_mem_nil _)
  | ok target => exact .bind (h target) fun _ _ hfound => .pure hfound

theorem areBounded_answer (c : Config) (i : Inquiry) :
    Talk.Says (i.answer c) fun _ found => AreBounded c.output found := by
  cases i with
  | resolve request =>
    -- a resolution has no table
    refine .last fun a => .pure ?_
    cases a <;> exact List.forall_mem_nil _
  | documentSymbols uri =>
    refine .bind (P := fun _ a => AreBounded c.output (a.map .table)) ?_
      fun _ _ hfound => .pure hfound
    rw [documentSymbols]
    by_cases hblank : Text.isBlankText uri
    · rw [if_pos hblank]
      exact .pure (List.forall_mem_nil _)
    · rw [if_neg hblank]
      exact isBounded_documentSymbolsIn.bind fun _ _ h =>
        .pure (List.forall_mem_singleton.mpr h)
  | locations query request =>
    exact areBounded_withTarget request fun _ =>
      (isBounded_locationsAt query).weaken fun _ _ => List.forall_mem_singleton.mpr
  | hover request =>
    exact areBounded_withTarget request fun _ =>
      isBounded_hoverAt.weaken fun _ _ => List.forall_mem_singleton.mpr
  | children request depth =>
    exact areBounded_withTarget request fun _ =>
      (isBounded_childrenOf _).weaken fun _ _ => List.forall_mem_singleton.mpr
  | hierarchy kind request =>
    refine areBounded_withTarget request fun _ => (isBounded_hierarchyAt kind).weaken ?_
    rintro _ _ ⟨hincoming, houtgoing⟩
    exact List.forall_mem_cons.mpr ⟨hincoming, List.forall_mem_singleton.mpr houtgoing⟩

/-- **Tables are within the limits**, whatever is found and however much of it. A table shows at
most as many rows as the limit for rows or the size of a sample, or one, and one notice behind them.
The line of a row is bounded by the cap for fields and the number of columns. This holds of every
conversation that a lookup may have, so with every provider: on the clock, whatever the provider
does and whenever the lookup is cancelled, and with the servers of a workspace. -/
theorem tables_within_limits (c : Config) (i : Inquiry) :
    (∀ said found, i.MaySay c said found → ∀ t ∈ tablesOf found, t.IsBounded c.output)
    ∧ (∀ (w : World) (start : Nat),
        ∀ t ∈ tablesOf ((i.answer c : Timed (Except MalformedInput Finding)) w start).value,
          t.IsBounded c.output)
    ∧ ∀ ws : Workspace,
        ∀ t ∈ tablesOf ((i.answer c : Dialogue (Except MalformedInput Finding)) ws).1,
          t.IsBounded c.output := by
  have hall := areBounded_answer c i
  refine ⟨hall, ?_, ?_⟩
  · intro w start
    obtain ⟨said, hsaid, _⟩ := maySay_of_run c i w start
    exact hall said _ hsaid
  · intro ws
    obtain ⟨said, hsaid⟩ := maySay_of_workspace c i ws
    exact hall said _ hsaid

/-- Three places in a document full of bars, whose name is full of bars too. -/
def threeBarred : Provider
  | .locations _ _ _ => ⟨some 0, .ok (List.replicate 3 ⟨"||||", .point ⟨0, 0⟩⟩)⟩
  | .document _ => ⟨some 0, .ok "||||"⟩
  | _ => ⟨none, .error .notConnected⟩

/-- A sample of one of three places, with fields of two characters that are written as four: one
row more than the sample, and 22 characters where 24 are allowed. -/
theorem tables_within_limits_sample :
    let c : Config := { output := ⟨0, 2, 1, 2⟩ }
    let i := Inquiry.locations .references (.atPosition "a" ⟨0, 0⟩)
    let found := ((i.answer c : Timed _) ⟨threeBarred, none⟩ 0).value
    let t : Table := ⟨.locations, ["\\|\\| | 0: | \\|\\| | EOL",
      "3 results found, showing the first 1. Narrow the query (a more specific symbol, or a "
        ++ "definition lookup) to see the rest | EOL"], true, 3⟩
    tablesOf found = [t] ∧ t.IsBounded c.output := by
  intro c i found t
  have hfound : tablesOf found = [t] := by decide +kernel
  refine ⟨hfound, (tables_within_limits c i).2.1 ⟨threeBarred, none⟩ 0 t ?_⟩
  change t ∈ tablesOf found
  rw [hfound]
  exact List.mem_cons_self

end Lookup

end SymbolQuery
