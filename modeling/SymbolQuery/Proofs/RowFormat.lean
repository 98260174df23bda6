/-
Reading a row back from its line.

A line is taken apart at every delimiter, from left to right. That this finds the
cells that were joined, whatever their fields hold, rests on one fact about cells: in
what `escape` writes, a bar never stands directly behind a space. A delimiter has its
bar behind a space, so no delimiter begins inside a cell. It does not begin across
the end of a cell either, since the delimiter that is really there begins with a
space and not with a bar.
-/
import Mathlib.Data.List.Chain
import SymbolQuery.Table.Row

set_option autoImplicit false

namespace SymbolQuery.Table

/-! ## What a cell looks like -/

/-- Two neighbours in a cell: a bar does not stand behind a space. -/
def Guarded (a b : Char) : Prop := b = '|' → a ≠ ' '

/-- A cell never begins with a bar, since its first bar comes with a backslash. -/
theorem head?_escape_ne_bar (s : List Char) : (escape s).head? ≠ some '|' := by
  fun_cases escape s with
  | case7 c rest _ hbar _ _ _ =>
    intro h
    exact hbar (Option.some.inj h)
  | _ => simp

/-- **No bar behind a space.** The one property of escaped text that splitting needs. -/
theorem isChain_guarded_escape (s : List Char) : (escape s).IsChain Guarded := by
  -- an escape sequence is guarded inside, and what follows it does not begin with a bar
  have follow : ∀ (a : Char) (t : List Char), (escape t).IsChain Guarded →
      (a :: escape t).IsChain Guarded := by
    intro a t ht
    refine List.isChain_cons.mpr ⟨?_, ht⟩
    intro b hb hbar
    exact absurd (hbar ▸ hb) (head?_escape_ne_bar t)
  have pair : ∀ (b : Char) (t : List Char), (escape t).IsChain Guarded →
      ('\\' :: b :: escape t).IsChain Guarded := by
    intro b t ht
    refine List.isChain_cons_cons.mpr ⟨?_, follow b t ht⟩
    intro _
    decide
  fun_induction escape s with
  | case1 => exact .nil
  | case2 rest ih => exact pair '\\' rest ih
  | case3 rest ih => exact pair '|' rest ih
  | case4 rest ih => exact pair 'n' rest ih
  | case5 rest _ ih => exact pair 'n' rest ih
  | case6 rest ih => exact pair 'n' rest ih
  | case7 c rest _ _ _ _ _ ih => exact follow c rest ih

/-- Reading an escaped text gives the text with its line breaks in one spelling. -/
theorem unescape_escape (s : List Char) : unescape (escape s) = normalBreaks s := by
  fun_induction escape s with
  | case1 => rfl
  | case2 rest ih => rw [unescape, ih, normalBreaks] <;> simp
  | case3 rest ih => rw [unescape, ih, normalBreaks] <;> simp
  | case4 rest ih => rw [unescape, ih, normalBreaks]
  -- a carriage return on its own: what follows it is no line feed
  | case5 rest hn ih => rw [unescape, ih, normalBreaks]; exact hn
  | case6 rest ih => rw [unescape, ih, normalBreaks] <;> simp
  | case7 c rest hslash _ _ hcr _ ih =>
    rw [unescape, ih, normalBreaks]
    all_goals simp_all

/-! ## Splitting -/

/-- A character that begins no delimiter belongs to the first piece. -/
theorem splitCells_cons {c : Char} {l piece : List Char} {more : List (List Char)}
    (hc : c = ' ' → l.head? ≠ some '|') (hl : splitCells l = piece :: more) :
    splitCells (c :: l) = (c :: piece) :: more := by
  rw [splitCells, hl]
  intro rest hspace hbar
  exact hc hspace (by rw [hbar]; rfl)

/-- **A cell is read as one piece.** Splitting goes over a guarded text up to the delimiter
behind it. -/
theorem splitCells_append_delimiter (l rest : List Char) (hl : l.IsChain Guarded) :
    splitCells (l ++ delimiter ++ rest) = l :: splitCells rest := by
  induction l with
  | nil => rfl
  | cons c l ih =>
    refine splitCells_cons ?_ (ih hl.tail)
    intro hspace hbar
    cases l with
    | nil =>
      -- the cell ends with a space; the delimiter behind it begins with one too
      simp [delimiter] at hbar
    | cons d l =>
      have hd : d = '|' := by simpa using hbar
      exact (List.isChain_cons_cons.mp hl).1 hd hspace

/-- A terminated line of cells falls apart into these cells and the end mark. -/
theorem splitCells_terminate (cells : List (List Char)) (hne : cells ≠ [])
    (hcells : ∀ c ∈ cells, c.IsChain Guarded) :
    splitCells (terminate (joinCells cells)) = cells ++ [endMark] := by
  induction cells with
  | nil => exact absurd rfl hne
  | cons c rest ih =>
    have hc : c.IsChain Guarded := hcells c List.mem_cons_self
    cases rest with
    | nil =>
      rw [joinCells, terminate, splitCells_append_delimiter c endMark hc]
      rfl
    | cons d rest =>
      have hrest := ih (List.cons_ne_nil d rest)
        (fun e he => hcells e (List.mem_cons_of_mem c he))
      -- the first cell has its delimiter behind it, and the rest is a line of its own
      have hline : terminate (joinCells (c :: d :: rest))
          = c ++ delimiter ++ terminate (joinCells (d :: rest)) := by
        simp only [joinCells, terminate, List.append_assoc]
      rw [hline, splitCells_append_delimiter c _ hc, hrest]
      rfl

/-- The pieces of the line of a row: the cells of its fields and the end mark. -/
theorem splitCells_encodeRow (cap : Nat) (fields : List String) (hne : fields ≠ []) :
    splitCells (encodeRow cap fields).toList
      = fields.map (fun f => cell cap f.toList) ++ [endMark] := by
  have hcells : ∀ c ∈ (fields.map String.toList).map (cell cap), c.IsChain Guarded := by
    intro c hc
    obtain ⟨f, _, rfl⟩ := List.mem_map.mp hc
    exact isChain_guarded_escape (f.take cap)
  rw [encodeRow, String.toList_ofList, encodeChars,
    splitCells_terminate _ (by simpa using hne) hcells, List.map_map]
  rfl

/-- What a row keeps of a field: its first `cap` characters with line breaks in one spelling. -/
def keptField (cap : Nat) (field : String) : List Char := normalBreaks (field.toList.take cap)

/-- Reading the cells of a line back gives what the row kept of its fields. -/
theorem decode_encodeRow (cap : Nat) (fields : List String) (hne : fields ≠ []) :
    decode (encodeRow cap fields).toList = some (fields.map (keptField cap)) := by
  have hread : (fun f : String => unescape (cell cap f.toList)) = keptField cap := by
    funext f
    exact unescape_escape (f.toList.take cap)
  rw [decode, splitCells_encodeRow cap fields hne, List.reverse_append]
  simp [Function.comp_def, hread]

/-! ## The row format -/

/-- **The row format can be read back.** The pieces of a line are one more than the fields, the
last is the end mark, and each of the others, unescaped, is what the row keeps of its field. So
rows that share a line keep the same of their fields. -/
theorem splitCells_encodeRow_fields (cap : Nat) (fields : List String) (hne : fields ≠ []) :
    (splitCells (encodeRow cap fields).toList).length = fields.length + 1
      ∧ (splitCells (encodeRow cap fields).toList).getLast? = some endMark
      ∧ (∀ i (hi : i < fields.length),
          (splitCells (encodeRow cap fields).toList)[i]?.map unescape
            = some (normalBreaks (fields[i].toList.take cap)))
      ∧ ∀ others : List String, others ≠ [] → encodeRow cap others = encodeRow cap fields →
          others.map (keptField cap) = fields.map (keptField cap) := by
  have hcells := splitCells_encodeRow cap fields hne
  refine ⟨?_, ?_, ?_, ?_⟩
  · rw [hcells, List.length_append, List.length_map, List.length_singleton]
  · rw [hcells, List.getLast?_concat]
  · intro i hi
    rw [hcells, List.getElem?_append_left (by rwa [List.length_map]), List.getElem?_map,
      List.getElem?_eq_getElem hi, Option.map_some, Option.map_some, cell, unescape_escape]
  · intro others hothers hline
    have h := decode_encodeRow cap others hothers
    rw [hline, decode_encodeRow cap fields hne] at h
    exact (Option.some.inj h).symm

/-- A cap that cuts a line break in two leaves a row with the line of another one, whose break is a
line feed; the two keep the same of their fields. -/
theorem splitCells_encodeRow_torn_break :
    let torn : List String := ["a\r\n", "| ", ""]
    let whole : List String := ["a\nzz", "| ", ""]
    torn ≠ [] ∧ whole ≠ [] ∧ encodeRow 2 whole = encodeRow 2 torn
      ∧ (splitCells (encodeRow 2 torn).toList).length = 4
      ∧ whole.map (keptField 2) = torn.map (keptField 2) := by
  intro torn whole
  have hline : encodeRow 2 whole = encodeRow 2 torn := by decide +kernel
  obtain ⟨hlength, _, _, hsame⟩ := splitCells_encodeRow_fields 2 torn (by simp [torn])
  exact ⟨by simp [torn], by simp [whole], hline, hlength, hsame whole (by simp [whole]) hline⟩

end SymbolQuery.Table
