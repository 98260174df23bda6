/-
The text around a line, as a window of lines.

A text is cut at its line feeds, whatever carriage returns it holds, so no line holds a line feed
and a text joined from lines is cut into these lines again. The text around a line therefore has
as many lines as it was joined from: the line itself, the one before and the one after, as far as
there are any. Looked for by number, they are read within the lines of the text.
-/
import SymbolQuery.Lookup.Preview
import SymbolQuery.Proofs.IndexedAccess

set_option autoImplicit false

namespace SymbolQuery.Text

/-! ## Lines -/

/-- A piece of a text without the carriage return that stood before its line feed. -/
def withoutReturn (piece : List Char) : List Char :=
  if piece.getLast? = some '\r' then piece.dropLast else piece

/-- The lines of a text by its line feeds: each piece in front of one is a line but for a carriage
return at its end, and what follows the last one is a line if it is not empty. -/
def linesByFeed (s : List Char) : List (List Char) :=
  (s.splitOn '\n').dropLast.map withoutReturn
    ++ (s.splitOn '\n').getLast?.toList.filter fun rest => !rest.isEmpty

section

variable {c : Char} {piece s : List Char}

theorem withoutReturn_cons (h : c = '\r' → piece ≠ []) :
    withoutReturn (c :: piece) = c :: withoutReturn piece := by
  cases piece with
  | nil =>
    have hc : c ≠ '\r' := fun hc => h hc rfl
    simp [withoutReturn, hc]
  | cons d piece =>
    rw [withoutReturn, withoutReturn, List.getLast?_cons_cons, apply_ite (List.cons c)]
    rfl

theorem linesByFeed_append (piece rest : List Char) (h : '\n' ∉ piece) :
    linesByFeed (piece ++ '\n' :: rest) = withoutReturn piece :: linesByFeed rest := by
  have hne : rest.splitOn '\n' ≠ [] := List.splitOn_ne_nil '\n' rest
  rw [linesByFeed, List.splitOn_append_cons_self_of_not_mem h, List.dropLast_cons_of_ne_nil hne,
    List.getLast?_cons_of_ne_nil hne]
  rfl

theorem linesByFeed_of_not_mem (h : '\n' ∉ s) :
    linesByFeed s = [s].filter fun rest => !rest.isEmpty := by
  rw [linesByFeed, List.splitOn_eq_singleton h]
  rfl

/-- A character that ends no line and is no carriage return in front of a line feed begins the
first line. -/
theorem linesByFeed_cons (hfeed : c ≠ '\n') (hreturn : ∀ rest, c = '\r' → s ≠ '\n' :: rest) :
    linesByFeed (c :: s) = match linesByFeed s with
      | [] => [[c]]
      | line :: more => (c :: line) :: more := by
  by_cases hmem : '\n' ∈ s
  · -- the first line is the piece in front of the first line feed
    obtain ⟨piece, rest, rfl, hpiece⟩ := List.eq_append_cons_of_mem hmem
    have hcons : '\n' ∉ c :: piece := List.not_mem_cons_of_ne_of_not_mem hfeed.symm hpiece
    have hkept : c = '\r' → piece ≠ [] := by
      rintro hc rfl
      exact hreturn rest hc rfl
    rw [← List.cons_append, linesByFeed_append _ rest hcons, linesByFeed_append _ rest hpiece,
      withoutReturn_cons hkept]
  · -- there is one line at most, and it has no ending
    have hcons : '\n' ∉ c :: s := List.not_mem_cons_of_ne_of_not_mem hfeed.symm hmem
    rw [linesByFeed_of_not_mem hcons, linesByFeed_of_not_mem hmem]
    cases s <;> rfl

/-- **The lines of a text are those by its line feeds.** -/
theorem lineChars_eq_linesByFeed (s : List Char) : lineChars s = linesByFeed s := by
  fun_induction lineChars s with
  | case1 => rfl
  | case2 rest ih => rw [ih]; exact (linesByFeed_append [] rest (by decide)).symm
  | case3 rest ih => rw [ih]; exact (linesByFeed_append ['\r'] rest (by decide)).symm
  | case4 c rest hfeed hreturn hnil ih => rw [linesByFeed_cons hfeed hreturn, ← ih, hnil]
  | case5 c rest hfeed hreturn line more hcons ih =>
    rw [linesByFeed_cons hfeed hreturn, ← ih, hcons]

/-- No line holds a line feed. -/
theorem not_mem_lineChars (s : List Char) : ∀ line ∈ lineChars s, '\n' ∉ line := by
  fun_induction lineChars s with
  | case1 => exact List.forall_mem_nil _
  | case2 rest ih => exact List.forall_mem_cons.mpr ⟨List.not_mem_nil, ih⟩
  | case3 rest ih => exact List.forall_mem_cons.mpr ⟨List.not_mem_nil, ih⟩
  | case4 c rest hfeed hreturn hnil ih =>
    rw [List.forall_mem_singleton, List.mem_singleton]
    exact Ne.symm hfeed
  | case5 c rest hfeed hreturn line more hcons ih =>
    rw [hcons] at ih
    obtain ⟨hline, hmore⟩ := List.forall_mem_cons.mp ih
    exact List.forall_mem_cons.mpr
      ⟨List.not_mem_cons_of_ne_of_not_mem (Ne.symm hfeed) hline, hmore⟩

/-! ## Joined texts -/

/-- Between pieces without it a separator stands once for each two neighbours. -/
theorem count_intercalate (ls : List (List Char)) (h : ∀ l ∈ ls, c ∉ l) :
    ([c].intercalate ls).count c = ls.length - 1 := by
  induction ls with
  | nil => rfl
  | cons l ls ih =>
    obtain ⟨hl, hls⟩ := List.forall_mem_cons.mp h
    have hcount := ih hls
    cases ls with
    | nil => rw [List.intercalate_singleton, List.count_eq_zero.mpr hl]; rfl
    | cons l' ls =>
      rw [List.intercalate_cons_cons, List.count_append, List.count_append, hcount,
        List.count_eq_zero.mpr hl, List.count_singleton_self]
      simp only [List.length_cons]
      omega

/-- No line of a text holds a line feed. -/
theorem not_mem_lines {text line : String} (h : line ∈ lines text) : '\n' ∉ line.toList := by
  obtain ⟨chars, hchars, rfl⟩ := List.mem_map.mp h
  rw [String.toList_ofList]
  exact not_mem_lineChars text.toList chars hchars

/-- Lines that are joined are cut again where they were joined. -/
theorem splitOn_joined {l : List String} (h : ∀ line ∈ l, '\n' ∉ line.toList) (hne : l ≠ []) :
    ("\n".intercalate l).toList.splitOn '\n' = l.map String.toList := by
  rw [String.toList_intercalate]
  exact List.splitOn_intercalate '\n' (List.forall_mem_map.mpr h)
    (fun hnil => hne (List.map_eq_nil_iff.mp hnil))

theorem count_joined {l : List String} (h : ∀ line ∈ l, '\n' ∉ line.toList) :
    ("\n".intercalate l).toList.count '\n' = l.length - 1 := by
  rw [String.toList_intercalate, ← List.length_map String.toList]
  exact count_intercalate _ (List.forall_mem_map.mpr h)

end

end SymbolQuery.Text

namespace SymbolQuery.Lookup

open Indexed

/-! ## Windows -/

/-- The text around a line, with the lines read by their numbers. -/
def contextByNumber (text : String) (line : Nat) : Reading String := do
  let all := Text.lines text
  if all.length ≤ line then
    return ""
  else
    let first := line - 1
    let last := min (line + 1) (← less all.length 1)
    return String.intercalate "\n" (← through all first last)

/-- **The lines around a line are read within those of the text.** -/
theorem contextByNumber_eq (text : String) (line : Nat) :
    contextByNumber text line = .ok (contextLines text line) := by
  dsimp only [contextByNumber, contextLines]
  generalize Text.lines text = all
  by_cases hline : all.length ≤ line
  · rw [if_pos hline, if_pos hline]
    rfl
  · have hless : less all.length 1 = .ok (all.length - 1) := less_eq_ok_iff.mpr (by omega)
    have hpiece : through all (line - 1) (min (line + 1) (all.length - 1))
        = .ok ((all.drop (line - 1)).take
          (min (line + 1) (all.length - 1) + 1 - (line - 1))) :=
      slice_eq_ok_iff.mpr ⟨by omega, by omega, List.drop_take⟩
    rw [if_neg hline, if_neg hline, hless, ok_bind, hpiece, ok_bind]
    rfl

/-- The lines from the one before `line` up to the one after it, as far as there are any: element
`i` of the window is the line with the number `line - 1 + i`. -/
def IsWindow (all : List String) (line : Nat) (window : List String) : Prop :=
  ∀ i, window[i]?
    = if line - 1 + i ≤ min (line + 1) (all.length - 1) then all[line - 1 + i]? else none

section

variable {text : String} {all window : List String} {line : Nat}

theorem IsWindow.subset (h : IsWindow all line window) : window ⊆ all := by
  intro l hl
  obtain ⟨i, hi⟩ := List.mem_iff_getElem?.mp hl
  rw [h i] at hi
  split at hi
  case isTrue => exact List.mem_of_getElem? hi
  case isFalse => cases hi

theorem IsWindow.length_le (h : IsWindow all line window) : window.length ≤ 3 := by
  rw [← List.getElem?_eq_none_iff, h 3, if_neg (by omega)]

/-- The line itself is the first of its window if it is the first of all, and else the second. -/
theorem IsWindow.getElem?_line (h : IsWindow all line window) (hline : line < all.length) :
    window[min line 1]? = all[line]? := by
  have hsum : line - 1 + min line 1 = line := by omega
  rw [h, hsum, if_pos (by omega)]

theorem contextLines_of_le (h : (Text.lines text).length ≤ line) : contextLines text line = "" := by
  rw [contextLines]
  exact if_pos h

/-- Where the text has the line, what is shown is joined from its window. -/
theorem exists_window (h : line < (Text.lines text).length) :
    ∃ window, contextLines text line = String.intercalate "\n" window
      ∧ IsWindow (Text.lines text) line window := by
  refine ⟨_, if_neg (Nat.not_le.mpr h), fun i => ?_⟩
  rw [List.getElem?_take, List.getElem?_drop]
  exact if_congr (by omega) rfl rfl

end

/-- **The text around a line is a window of at most three lines.** The lines of a text are those by
its line feeds. No line is read that the text does not have, and no difference is below zero. There
is nothing around a line beyond the last; else the window holds the lines from the one before up to
the one after, as far as the text has them, and it is cut into just these lines again, of which the
addressed one is the first if it is the first of the text, and else the second. -/
theorem context_is_window (text : String) (line : Nat) :
    let all := Text.lines text
    let shown := contextLines text line
    all.map String.toList = Text.linesByFeed text.toList
      ∧ contextByNumber text line = .ok shown
      ∧ (all.length ≤ line → shown = "")
      ∧ (∀ addressed, all[line]? = some addressed →
        ∃ window, IsWindow all line window ∧ shown = String.intercalate "\n" window
          ∧ shown.toList.splitOn '\n' = window.map String.toList
          ∧ window[min line 1]? = some addressed)
      ∧ shown.toList.count '\n' ≤ 2 := by
  intro all shown
  refine ⟨?_, contextByNumber_eq text line, contextLines_of_le, fun addressed haddressed => ?_, ?_⟩
  · rw [← Text.lineChars_eq_linesByFeed]
    simp [all, Text.lines, Function.comp_def]
  · obtain ⟨hline, -⟩ := List.getElem?_eq_some_iff.mp haddressed
    obtain ⟨window, hshown, hwindow⟩ := exists_window hline
    have hwithin : window[min line 1]? = some addressed :=
      (hwindow.getElem?_line hline).trans haddressed
    have hne : window ≠ [] := by
      rintro rfl
      cases hwithin
    refine ⟨window, hwindow, hshown, ?_, hwithin⟩
    dsimp only [shown]
    rw [hshown, Text.splitOn_joined (fun l hl => Text.not_mem_lines (hwindow.subset hl)) hne]
  · by_cases hline : all.length ≤ line
    · dsimp only [shown]
      rw [contextLines_of_le hline]
      decide
    · obtain ⟨window, hshown, hwindow⟩ := exists_window (Nat.not_le.mp hline)
      have hlength := hwindow.length_le
      dsimp only [shown]
      rw [hshown, Text.count_joined fun l hl => Text.not_mem_lines (hwindow.subset hl)]
      omega

/-- A lone carriage return begins no line. -/
example : contextLines "a\r\nb\rc\n\nd" 1 = "a\nb\rc\n" := by decide +kernel

end SymbolQuery.Lookup
