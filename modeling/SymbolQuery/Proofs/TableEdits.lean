/-
What a table tells of the rows that it was made of.

A table is made of rows, whole or cut, and may be cut again any number of times. It
keeps the number of rows that it was made of. As long as it is not marked as cut it
shows all of them; once it is marked it shows the first of them and, behind these, one
row that tells of the others. A cut reads the number of shown rows off the table, in
one way before the mark is set and in another way after it. Both are right because of
this account, and the account is kept by every way of making and cutting tables.

It also says that a table which does not fit a limit has, in front of any notice, the rows
that a cut keeps. A second cut therefore finds what the first would have found, and of any
cuts of one table only the closest shows.

Every line of a table is terminated and holds no line break. So the text of a table
falls apart into its lines again, and counting terminated lines counts rows.
-/
import Mathlib.Data.List.Induction
import SymbolQuery.Proofs.RowFormat
import SymbolQuery.Table.Basic

set_option autoImplicit false

namespace SymbolQuery

/-! ## Texts on one line -/

namespace Text

/-- A text without a line break. -/
def OneLine (s : List Char) : Prop := '\n' ∉ s ∧ '\r' ∉ s

theorem oneLine_append {s t : List Char} (hs : OneLine s) (ht : OneLine t) :
    OneLine (s ++ t) := by
  constructor
  · exact List.not_mem_append hs.1 ht.1
  · exact List.not_mem_append hs.2 ht.2

theorem oneLine_nil : OneLine [] := ⟨List.not_mem_nil, List.not_mem_nil⟩

theorem oneLine_cons {c : Char} {s : List Char} :
    OneLine (c :: s) ↔ c ≠ '\n' ∧ c ≠ '\r' ∧ OneLine s := by
  constructor
  · intro h
    exact ⟨(List.ne_of_not_mem_cons h.1).symm, (List.ne_of_not_mem_cons h.2).symm,
      List.not_mem_of_not_mem_cons h.1, List.not_mem_of_not_mem_cons h.2⟩
  · rintro ⟨hfeed, hreturn, hs⟩
    exact ⟨List.not_mem_cons_of_ne_of_not_mem hfeed.symm hs.1,
      List.not_mem_cons_of_ne_of_not_mem hreturn.symm hs.2⟩

/-- The digits of a number are on one line. -/
theorem oneLine_repr (n : Nat) : OneLine n.repr.toList := by
  have hdigit : ∀ c ∈ n.repr.toList, c.isDigit = true := by
    intro c hc
    rw [Nat.toList_repr] at hc
    exact Nat.isDigit_of_mem_toDigits (by omega) (by omega) hc
  constructor
  · intro h
    exact absurd (hdigit _ h) (by decide)
  · intro h
    exact absurd (hdigit _ h) (by decide)

/-- A text on one line is the first line of whatever its line feed stands in front of. -/
theorem lineChars_append (line rest : List Char) (h : OneLine line) :
    lineChars (line ++ '\n' :: rest) = line :: lineChars rest := by
  induction line with
  | nil => rfl
  | cons c line ih =>
    obtain ⟨hfeed, hreturn, hline⟩ := oneLine_cons.mp h
    -- the head is no break and no first half of one, so it joins the line of the rest
    rw [List.cons_append, lineChars, ih hline]
    · exact hfeed
    · exact fun _ hc _ => hreturn hc

theorem lineChars_flatMap (lines : List (List Char)) (h : ∀ line ∈ lines, OneLine line) :
    lineChars (lines.flatMap fun line => line ++ ['\n']) = lines := by
  induction lines with
  | nil => rfl
  | cons line lines ih =>
    have hline : OneLine line := h line List.mem_cons_self
    have hrest := ih fun l hl => h l (List.mem_cons_of_mem line hl)
    rw [List.flatMap_cons, List.append_assoc, List.singleton_append,
      lineChars_append line _ hline, hrest]

end Text

namespace Table

/-! ## Lines of tables -/

/-- A line as tables have them: on one line, and with the end mark behind it. -/
structure IsLine (line : String) : Prop where
  oneLine : Text.OneLine line.toList
  ended : delimiter ++ endMark <:+ line.toList

theorem oneLine_escape (s : List Char) : Text.OneLine (escape s) := by
  -- all that is escaped becomes two characters, of which neither is a break
  have pair : ∀ (c : Char) (rest : List Char), c ≠ '\n' → c ≠ '\r' → Text.OneLine (escape rest) →
      Text.OneLine ('\\' :: c :: escape rest) := by
    intro c rest hfeed hreturn h
    exact Text.oneLine_cons.mpr ⟨by decide, by decide, Text.oneLine_cons.mpr ⟨hfeed, hreturn, h⟩⟩
  fun_induction escape s with
  | case1 => exact Text.oneLine_nil
  | case2 rest ih => exact pair '\\' rest (by decide) (by decide) ih
  | case3 rest ih => exact pair '|' rest (by decide) (by decide) ih
  | case4 rest ih => exact pair 'n' rest (by decide) (by decide) ih
  | case5 rest _ ih => exact pair 'n' rest (by decide) (by decide) ih
  | case6 rest ih => exact pair 'n' rest (by decide) (by decide) ih
  | case7 c rest _ _ _ hreturn hfeed ih => exact Text.oneLine_cons.mpr ⟨hfeed, hreturn, ih⟩

theorem oneLine_joinCells (cells : List (List Char)) (h : ∀ c ∈ cells, Text.OneLine c) :
    Text.OneLine (joinCells cells) := by
  fun_induction joinCells cells with
  | case1 => exact Text.oneLine_nil
  | case2 c => exact h c List.mem_cons_self
  | case3 c d rest ih =>
    have hc : Text.OneLine c := h c List.mem_cons_self
    have hdelimiter : Text.OneLine delimiter := ⟨by decide, by decide⟩
    exact Text.oneLine_append (Text.oneLine_append hc hdelimiter)
      (ih fun e he => h e (List.mem_cons_of_mem c he))

theorem isLine_terminate {s : List Char} (h : Text.OneLine s) :
    IsLine (String.ofList (terminate s)) := by
  have hmark : Text.OneLine (delimiter ++ endMark) := ⟨by decide, by decide⟩
  have hline : (String.ofList (terminate s)).toList = s ++ (delimiter ++ endMark) := by
    rw [String.toList_ofList, terminate, List.append_assoc]
  constructor
  · rw [hline]
    exact Text.oneLine_append h hmark
  · rw [hline]
    exact List.suffix_append s _

theorem isLine_encodeRow (cap : Nat) (fields : List String) : IsLine (encodeRow cap fields) := by
  apply isLine_terminate
  apply oneLine_joinCells
  intro c hc
  obtain ⟨f, _, rfl⟩ := List.mem_map.mp hc
  exact oneLine_escape _

theorem isLine_noticeLine (text : String) : IsLine (noticeLine text) :=
  isLine_terminate (oneLine_escape _)

/-- The row that tells of hidden rows is not escaped; its words and numbers need no escape. -/
theorem isLine_hiddenNotice (hidden total : Nat) : IsLine (hiddenNotice hidden total) := by
  apply isLine_terminate
  have hwords : Text.OneLine " rows truncated out of ".toList := ⟨by decide, by decide⟩
  have htotal : Text.OneLine " total".toList := ⟨by decide, by decide⟩
  simp only [toString, String.toList_append]
  exact Text.oneLine_append (Text.oneLine_append
    (Text.oneLine_append (Text.oneLine_repr hidden) hwords) (Text.oneLine_repr total)) htotal

theorem isLine_header (kind : TableKind) : IsLine kind.header := by
  apply isLine_terminate
  cases kind <;> exact ⟨by decide, by decide⟩

/-- A line counts as a row by its last cell alone. -/
theorem isTerminated_iff (line : String) :
    isTerminated line = true ↔ delimiter ++ endMark <:+ line.toList := by
  rw [isTerminated, List.isPrefixOf_iff_prefix, List.reverse_prefix]

/-! ## The text of a table -/

theorem toList_render (t : Table) :
    t.render.toList
      = ((t.header :: t.rows).map String.toList).flatMap fun line => line ++ ['\n'] := by
  -- the fold writes each line behind a text, so it is followed from any text
  have hfold : ∀ (lines : List String) (text : String),
      (lines.foldl (fun text line => text ++ line ++ "\n") text).toList
        = text.toList ++ (lines.map String.toList).flatMap fun line => line ++ ['\n'] := by
    intro lines
    induction lines with
    | nil => intro text; simp
    | cons line lines ih =>
      intro text
      rw [List.foldl_cons, ih, List.map_cons, List.flatMap_cons, String.toList_append,
        String.toList_append, List.append_assoc, List.append_assoc, List.append_assoc]
      rfl
  exact hfold _ ""

/-- **The text falls apart into its lines.** -/
theorem lines_render (t : Table) (h : ∀ line ∈ t.header :: t.rows, Text.OneLine line.toList) :
    Text.lines t.render = t.header :: t.rows := by
  have hchars : ∀ line ∈ (t.header :: t.rows).map String.toList, Text.OneLine line := by
    intro line hl
    obtain ⟨l, hmem, rfl⟩ := List.mem_map.mp hl
    exact h l hmem
  rw [Text.lines, toList_render, Text.lineChars_flatMap _ hchars, List.map_map,
    show String.ofList ∘ String.toList = id from funext fun _ => String.ofList_toList, List.map_id]

/-- Where every line is terminated, all but the header are counted. -/
theorem countRows_render (t : Table) (h : ∀ line ∈ t.header :: t.rows, IsLine line) :
    countRows t.render = t.rows.length := by
  have hall : (t.header :: t.rows).filter isTerminated = t.header :: t.rows :=
    List.filter_eq_self.mpr fun line hl => (isTerminated_iff line).mpr (h line hl).ended
  rw [countRows, lines_render t fun line hl => (h line hl).oneLine, hall, List.length_cons,
    Nat.add_sub_cancel]

/-! ## The account that a table gives -/

/-- The rows that tell of others: `shown` of `total` rows are shown. -/
inductive IsNotice (total shown : Nat) : String → Prop
  | hidden : IsNotice total shown (hiddenNotice (total - shown) total)
  | sample : IsNotice total shown (sampleNotice total shown)

theorem IsNotice.isLine {total shown : Nat} {line : String} (h : IsNotice total shown line) :
    IsLine line := by
  cases h with
  | hidden => exact isLine_hiddenNotice _ _
  | sample => exact isLine_noticeLine _

/-- What a table tells of the rows that it was made of. -/
structure Accounts (o : OutputLimits) (given : List Row) (t : Table) : Prop where
  count : t.originalRowCount = given.length
  whole : t.truncated = false → t.rows = given.map (encodeRow o.fieldCharCap)
  part : t.truncated = true → ∃ shown ≤ given.length, ∃ notice, IsNotice given.length shown notice
    ∧ t.rows = (given.take shown).map (encodeRow o.fieldCharCap) ++ [notice]

namespace Accounts

variable {o : OutputLimits} {given : List Row} {t : Table}

theorem length_rows (h : Accounts o given t) (htruncated : t.truncated = true) :
    ∃ shown ≤ given.length, t.rows.length = shown + 1 := by
  obtain ⟨shown, hshown, notice, _, hrows⟩ := h.part htruncated
  refine ⟨shown, hshown, ?_⟩
  rw [hrows, List.length_append, List.length_map, List.length_take, Nat.min_eq_left hshown,
    List.length_singleton]

/-- **The subtraction of a cut is never below zero.** A table that does not fit was made of more
rows than the limit, whichever way its rows were counted. -/
theorem lt_of_not_fits (h : Accounts o given t) {max : Nat} (hfits : t.fits max = false) :
    max < t.originalRowCount := by
  rw [fits] at hfits
  by_cases htruncated : t.truncated = true
  · -- the rows but the notice are counted, and they are among the rows that were given
    obtain ⟨shown, hshown, hlength⟩ := h.length_rows htruncated
    rw [if_pos htruncated, decide_eq_false_iff_not] at hfits
    have hcount := h.count
    omega
  · rw [if_neg htruncated, decide_eq_false_iff_not] at hfits
    omega

/-- A cut of a table that does not fit takes rows only, not the notice of an earlier cut. -/
theorem take_rows (h : Accounts o given t) {max : Nat} (hfits : t.fits max = false) :
    t.rows.take max = (given.take max).map (encodeRow o.fieldCharCap) := by
  rw [fits] at hfits
  by_cases htruncated : t.truncated = true
  · obtain ⟨shown, hshown, notice, _, hrows⟩ := h.part htruncated
    have hlength : ((given.take shown).map (encodeRow o.fieldCharCap)).length = shown := by
      rw [List.length_map, List.length_take, Nat.min_eq_left hshown]
    rw [if_pos htruncated, decide_eq_false_iff_not, hrows, List.length_append, hlength,
      List.length_singleton] at hfits
    have hmax : max ≤ shown := by omega
    -- the cut ends before the notice, and a part of a part of the rows is a part of them
    rw [hrows, List.take_append_of_le_length (hlength.symm ▸ hmax), ← List.map_take,
      List.take_take, Nat.min_eq_left hmax]
  · rw [h.whole (by simpa using htruncated), List.map_take]

/-- **A cut keeps the account.** -/
theorem truncate (h : Accounts o given t) (max : Nat) : Accounts o given (t.truncate max) := by
  by_cases hfits : t.fits max = true
  · rw [Table.truncate, if_pos hfits]
    exact h
  · have hmax := h.lt_of_not_fits (by simpa using hfits)
    have hrows := h.take_rows (by simpa using hfits)
    rw [Table.truncate, if_neg hfits]
    refine ⟨h.count, ?_, ?_⟩
    · intro hwhole
      cases hwhole
    · intro _
      refine ⟨max, h.count ▸ Nat.le_of_lt hmax, _, .hidden, ?_⟩
      rw [hrows, h.count]

theorem isLine (h : Accounts o given t) : ∀ line ∈ t.header :: t.rows, IsLine line := by
  -- a line is the header, the line of a row or a notice
  have hencoded : ∀ rows : List Row, ∀ line ∈ rows.map (encodeRow o.fieldCharCap), IsLine line := by
    intro rows line hl
    obtain ⟨row, _, rfl⟩ := List.mem_map.mp hl
    exact isLine_encodeRow _ row
  intro line hl
  rcases List.mem_cons.mp hl with rfl | hl
  · exact isLine_header t.kind
  by_cases htruncated : t.truncated = true
  · obtain ⟨shown, _, notice, hnotice, hrows⟩ := h.part htruncated
    rw [hrows] at hl
    rcases List.mem_append.mp hl with hl | hl
    · exact hencoded _ line hl
    · rw [List.mem_singleton.mp hl]
      exact hnotice.isLine
  · rw [h.whole (by simpa using htruncated)] at hl
    exact hencoded _ line hl

end Accounts

theorem accounts_empty (o : OutputLimits) (kind : TableKind) : Accounts o [] (empty kind) := by
  refine ⟨rfl, fun _ => rfl, ?_⟩
  intro h
  cases h

theorem accounts_encode (o : OutputLimits) (kind : TableKind) (rows : List Row) :
    Accounts o rows (encode o kind rows) := by
  refine ⟨rfl, fun _ => rfl, ?_⟩
  intro h
  cases h

theorem accounts_encodeBounded (o : OutputLimits) (kind : TableKind) (rows : List Row) :
    Accounts o rows (encodeBounded o kind rows) :=
  (accounts_encode o kind rows).truncate o.maxRows

theorem accounts_encodeSampled (o : OutputLimits) (kind : TableKind) (rows : List Row) :
    Accounts o rows (encodeSampled o kind rows) := by
  by_cases hceiling : rows.length ≤ o.samplingCeiling
  · rw [encodeSampled_of_le hceiling]
    exact accounts_encodeBounded o kind rows
  · rw [encodeSampled_of_lt (Nat.not_le.mp hceiling)]
    refine ⟨rfl, ?_, ?_⟩
    · intro hwhole
      cases hwhole
    · intro _
      exact ⟨min o.sampleSize rows.length, Nat.min_le_right _ _, _, .sample, rfl⟩

/-! ## Any sequence of edits -/

/-- One thing that is done to have a new table: making it of rows, or cutting the one at hand. -/
inductive Edit
  | empty (kind : TableKind)
  | encode (kind : TableKind) (rows : List Row)
  | encodeBounded (kind : TableKind) (rows : List Row)
  | encodeSampled (kind : TableKind) (rows : List Row)
  | truncate (max : Nat)

/-- A table and the rows that it was last made of. -/
structure Sheet where
  table : Table
  given : List Row

/-- The sheet after an edit. -/
def Edit.apply (o : OutputLimits) (s : Sheet) : Edit → Sheet
  | .empty kind => ⟨Table.empty kind, []⟩
  | .encode kind rows => ⟨Table.encode o kind rows, rows⟩
  | .encodeBounded kind rows => ⟨Table.encodeBounded o kind rows, rows⟩
  | .encodeSampled kind rows => ⟨Table.encodeSampled o kind rows, rows⟩
  | .truncate max => ⟨s.table.truncate max, s.given⟩

/-- The sheet after edits, the first of them made on an empty table. -/
def edited (o : OutputLimits) (kind : TableKind) (edits : List Edit) : Sheet :=
  edits.foldl (Edit.apply o) ⟨Table.empty kind, []⟩

/-- An edit keeps the account. -/
theorem Edit.accounts (o : OutputLimits) (s : Sheet) (e : Edit)
    (h : Accounts o s.given s.table) : Accounts o (e.apply o s).given (e.apply o s).table := by
  cases e with
  | empty kind => exact accounts_empty o kind
  | encode kind rows => exact accounts_encode o kind rows
  | encodeBounded kind rows => exact accounts_encodeBounded o kind rows
  | encodeSampled kind rows => exact accounts_encodeSampled o kind rows
  | truncate max => exact h.truncate max

theorem edited_concat (o : OutputLimits) (kind : TableKind) (edits : List Edit) (e : Edit) :
    edited o kind (edits ++ [e]) = e.apply o (edited o kind edits) := by
  rw [edited, List.foldl_append]
  rfl

/-- Edits keep the account. -/
theorem accounts_edited (o : OutputLimits) (kind : TableKind) (edits : List Edit) :
    Accounts o (edited o kind edits).given (edited o kind edits).table := by
  induction edits using List.reverseRecOn with
  | nil => exact accounts_empty o kind
  | append_singleton edits e ih =>
    rw [edited_concat]
    exact e.accounts o _ ih

/-- **A table accounts for its rows.** After any edits the table knows how many rows it was last
made of. Unmarked it shows all of them in order, marked it shows the first of them and one notice.
No cut of it subtracts more than there is. Its text has one line more than it has rows, each of
them terminated, and counting rows in the text gives their number. -/
theorem edited_accounts (o : OutputLimits) (kind : TableKind) (edits : List Edit) :
    let t := (edited o kind edits).table
    let given := (edited o kind edits).given
    t.originalRowCount = given.length
    ∧ (t.truncated = false → t.rows = given.map (encodeRow o.fieldCharCap))
    ∧ (t.truncated = true → ∃ shown ≤ given.length, ∃ notice, IsNotice given.length shown notice
        ∧ t.rows = (given.take shown).map (encodeRow o.fieldCharCap) ++ [notice])
    ∧ (∀ max, t.fits max = false → max ≤ t.originalRowCount)
    ∧ (Text.lines t.render).length = t.rows.length + 1
    ∧ (∀ line ∈ Text.lines t.render, delimiter ++ endMark <:+ line.toList)
    ∧ countRows t.render = t.rows.length := by
  intro t given
  have h : Accounts o given t := accounts_edited o kind edits
  have hlines : Text.lines t.render = t.header :: t.rows :=
    lines_render t fun line hl => (h.isLine line hl).oneLine
  refine ⟨h.count, h.whole, h.part, ?_, ?_, ?_, countRows_render t h.isLine⟩
  · intro max hfits
    exact Nat.le_of_lt (h.lt_of_not_fits hfits)
  · rw [hlines, List.length_cons]
  · rw [hlines]
    exact fun line hl => (h.isLine line hl).ended

/-! ## Cuts of cuts -/

theorem truncate_of_fits {t : Table} {max : Nat} (h : t.fits max = true) : t.truncate max = t :=
  if_pos h

theorem truncate_of_not_fits {t : Table} {max : Nat} (h : t.fits max = false) :
    t.truncate max
      = ⟨t.kind, t.rows.take max ++ [hiddenNotice (t.originalRowCount - max) t.originalRowCount],
          true, t.originalRowCount⟩ := by
  rw [Table.truncate, if_neg (by simp [h])]

/-- A table that fits a limit fits a larger one. -/
theorem fits_mono {t : Table} {a b : Nat} (hab : a ≤ b) (h : t.fits a = true) :
    t.fits b = true := by
  rw [fits] at h ⊢
  by_cases htruncated : t.truncated = true
  · rw [if_pos htruncated, decide_eq_true_eq] at h ⊢
    omega
  · rw [if_neg htruncated, decide_eq_true_eq] at h ⊢
    omega

namespace Accounts

variable {o : OutputLimits} {given : List Row} {t : Table}

/-- A table that does not fit has as many rows to keep as the limit says. -/
theorem length_take (h : Accounts o given t) {max : Nat} (hfits : t.fits max = false) :
    (t.rows.take max).length = max := by
  have hmax := h.lt_of_not_fits hfits
  have hcount := h.count
  rw [h.take_rows hfits, List.length_map, List.length_take]
  omega

/-- Once cut, a table fits the limits that are no smaller than the one it was cut to. -/
theorem fits_truncate (h : Accounts o given t) {a : Nat} (hfits : t.fits a = false) (b : Nat) :
    (t.truncate a).fits b = decide (a ≤ b) := by
  rw [truncate_of_not_fits hfits, fits, if_pos rfl, List.length_append, h.length_take hfits,
    List.length_singleton, Nat.add_sub_cancel]

/-- **Two cuts are one**, to the smaller of the two limits. -/
theorem truncate_truncate (h : Accounts o given t) (a b : Nat) :
    (t.truncate a).truncate b = t.truncate (min a b) := by
  cases hfits : t.fits a with
  | true =>
    rw [truncate_of_fits hfits]
    by_cases hab : a ≤ b
    · rw [Nat.min_eq_left hab, truncate_of_fits hfits, truncate_of_fits (fits_mono hab hfits)]
    · rw [Nat.min_eq_right (by omega)]
  | false =>
    by_cases hab : a ≤ b
    · have hagain : (t.truncate a).fits b = true := by
        rw [h.fits_truncate hfits, decide_eq_true hab]
      rw [Nat.min_eq_left hab, truncate_of_fits hagain]
    · have hba : b ≤ a := by omega
      have hagain : (t.truncate a).fits b = false := by
        rw [h.fits_truncate hfits, decide_eq_false hab]
      have hwide : t.fits b = false := by
        cases hb : t.fits b with
        | false => rfl
        | true => rw [fits_mono hba hb] at hfits; cases hfits
      -- the second cut ends before the notice of the first one
      have hrows : (t.truncate a).rows.take b = t.rows.take b := by
        rw [truncate_of_not_fits hfits,
          List.take_append_of_le_length (by rw [h.length_take hfits]; exact hba), List.take_take,
          Nat.min_eq_left hba]
      rw [Nat.min_eq_right hba, truncate_of_not_fits hagain, hrows, truncate_of_not_fits hwide,
        truncate_of_not_fits hfits]

/-- Of any number of cuts the one to the smallest limit remains. -/
theorem foldl_truncate (h : Accounts o given t) (cuts : List Nat) :
    cuts.foldl Table.truncate t = cuts.min?.elim t t.truncate := by
  induction cuts generalizing t with
  | nil => rfl
  | cons a cuts ih =>
    rw [List.foldl_cons, ih (h.truncate a), List.min?_cons]
    cases cuts.min? with
    | none => rfl
    | some b => exact h.truncate_truncate a b

end Accounts

/-- **Cuts compose.** Cutting a table that was made by any edits to one limit and then to another
gives the table cut to the smaller of them, with its notice. So to cut once more to the same limit
changes nothing, the order of two cuts does not matter, and any number of cuts in any order come to
the one that is smallest. -/
theorem cuts_compose (o : OutputLimits) (kind : TableKind) (edits : List Edit) :
    let t := (edited o kind edits).table
    (∀ a b, (t.truncate a).truncate b = t.truncate (min a b))
    ∧ (∀ max, (t.truncate max).truncate max = t.truncate max)
    ∧ (∀ a b, (t.truncate a).truncate b = (t.truncate b).truncate a)
    ∧ ∀ cuts : List Nat, cuts.foldl Table.truncate t = cuts.min?.elim t t.truncate := by
  intro t
  have h : Accounts o (edited o kind edits).given t := accounts_edited o kind edits
  refine ⟨h.truncate_truncate, ?_, ?_, h.foldl_truncate⟩
  · intro max
    rw [h.truncate_truncate, Nat.min_self]
  · intro a b
    rw [h.truncate_truncate, h.truncate_truncate, Nat.min_comm]

end Table

end SymbolQuery
