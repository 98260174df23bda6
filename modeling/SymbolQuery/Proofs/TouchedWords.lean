/-
The word that a column of a line touches.

A column is counted in units of which a character takes one or more: one in a count of
characters, one or two in the code units of UTF-16, in which servers count. `WordAt` says for
any such count which word a column touches: the maximal run of word characters that begins at
or before it and ends at or behind it, or none. There is one answer for each column
(`exists_wordAt`, `WordAt.unique`).

Words are looked up behind a number of characters. So the word that is found, for which hover
texts at positions are named, is always that of the column behind so many characters, and it is
the word of the column that was asked for where no character before it takes two units. Behind
one that does, columns are read too far to the right. In a line whose first such character is
no word character that shows at some column exactly if a word follows.
-/
import Mathlib.Data.List.DropRight
import SymbolQuery.Proofs.NamesAsPositions

set_option autoImplicit false

namespace SymbolQuery.Text

/-! ## Columns -/

/-- The code units that a character takes in UTF-16: two beyond the basic plane. -/
def units (c : Char) : Nat := if c.toNat < 0x10000 then 1 else 2

theorem units_pos (c : Char) : 0 < units c := by
  unfold units
  split <;> decide

/-- The columns of a text, if a character takes as many as `width` says. -/
def columns (width : Char → Nat) : List Char → Nat
  | [] => 0
  | c :: s => width c + columns width s

section

variable {width : Char → Nat}

@[simp] theorem columns_nil : columns width [] = 0 := rfl

@[simp] theorem columns_cons (c : Char) (s : List Char) :
    columns width (c :: s) = width c + columns width s := rfl

@[simp] theorem columns_append (s t : List Char) :
    columns width (s ++ t) = columns width s + columns width t := by
  induction s with
  | nil => simp
  | cons c s ih => rw [List.cons_append, columns_cons, columns_cons, ih, Nat.add_assoc]

theorem length_le_columns (hwidth : ∀ c, 0 < width c) (s : List Char) :
    s.length ≤ columns width s := by
  induction s with
  | nil => exact Nat.le_refl 0
  | cons c s ih =>
    have := hwidth c
    rw [List.length_cons, columns_cons]
    omega

theorem eq_nil_of_columns (hwidth : ∀ c, 0 < width c) {s : List Char} (h : columns width s = 0) :
    s = [] :=
  List.eq_nil_of_length_eq_zero (Nat.le_zero.mp (h ▸ length_le_columns hwidth s))

theorem columns_eq_length {s : List Char} (h : ∀ c ∈ s, width c = 1) :
    columns width s = s.length := by
  induction s with
  | nil => rfl
  | cons c s ih =>
    obtain ⟨hc, hs⟩ := List.forall_mem_cons.mp h
    rw [columns_cons, hc, ih hs, List.length_cons, Nat.add_comm]

end

/-! ## Words -/

/-- A maximal run of word characters between what stands before and after it. -/
structure IsWord (before run after : List Char) : Prop where
  ne_nil : run ≠ []
  word : ∀ c ∈ run, isWordChar c = true
  starts : ∀ c ∈ before.getLast?, isWordChar c = false
  ends : ∀ c ∈ after.head?, isWordChar c = false

/-- **The word that a column touches**: it begins at or before the column and ends at or behind it.
There is none if no character at either side of the column is a word character; inside a character
of two units it stands at both sides. -/
inductive WordAt (width : Char → Nat) (line : List Char) (column : Nat) : Option (List Char) → Prop
  | some {before run after : List Char} (hline : line = before ++ run ++ after)
      (hword : IsWord before run after) (hstart : columns width before ≤ column)
      (hstop : column ≤ columns width (before ++ run)) : WordAt width line column (some run)
  | none (h : ∀ before c after, line = before ++ c :: after → columns width before ≤ column →
      column ≤ columns width (before ++ [c]) → isWordChar c = false) :
    WordAt width line column none

section

variable {width : Char → Nat} {line : List Char} {column : Nat}

/-- A run that a column touches has a character that it touches. -/
theorem exists_touched {before run : List Char} (hrun : run ≠ [])
    (hstart : columns width before ≤ column) (hstop : column ≤ columns width (before ++ run)) :
    ∃ left c right, run = left ++ c :: right ∧ columns width (before ++ left) ≤ column
      ∧ column ≤ columns width (before ++ left ++ [c]) := by
  induction run generalizing before with
  | nil => exact absurd rfl hrun
  | cons c rest ih =>
    by_cases hc : column ≤ columns width (before ++ [c])
    · exact ⟨[], c, rest, rfl, by simpa using hstart, by simpa using hc⟩
    · -- the column lies behind the first character
      have hrest : rest ≠ [] := by
        rintro rfl
        exact hc hstop
      obtain ⟨left, d, right, rfl, hleft, hright⟩ :=
        ih hrest (Nat.le_of_not_le hc) (by simpa using hstop)
      exact ⟨c :: left, d, right, rfl, by simpa using hleft, by simpa using hright⟩

theorem takeWhile_eq_nil {s : List Char} (h : ∀ c ∈ s.head?, isWordChar c = false) :
    s.takeWhile isWordChar = [] := by
  cases s with
  | nil => rfl
  | cons c s => simp [h c rfl]

theorem IsWord.eq_takeWhile {before run after : List Char} (h : IsWord before run after) :
    run = (run ++ after).takeWhile isWordChar := by
  rw [List.takeWhile_append_of_pos h.word, takeWhile_eq_nil h.ends, List.append_nil]

/-- Of two runs that a column touches neither begins behind the other's beginning. -/
theorem IsWord.eq_nil_of_append (hwidth : ∀ c, 0 < width c)
    {before run after more run' after' : List Char} (h : IsWord before run after)
    (h' : IsWord (before ++ more) run' after') (hline : run ++ after = more ++ (run' ++ after'))
    (hstop : column ≤ columns width (before ++ run))
    (hstart : columns width (before ++ more) ≤ column) : more = [] := by
  by_contra hmore
  -- the last character before the later run is no word character, so it lies behind the first run
  have hlast : isWordChar (more.getLast hmore) = false := by
    refine h'.starts _ ?_
    rw [List.getLast?_append_of_ne_nil _ hmore, List.getLast?_eq_some_getLast hmore]
    rfl
  obtain ⟨s, hs, -⟩ | ⟨s, hs, -⟩ := List.append_eq_append_iff.mp hline
  · -- `more = run ++ s`
    have hlonger : s ≠ [] := by
      rintro rfl
      rw [List.append_nil] at hs
      subst hs
      rw [h.word _ (List.getLast_mem hmore)] at hlast
      cases hlast
    have hpos := List.length_pos_iff.mpr hlonger
    have hcolumns := length_le_columns hwidth s
    simp only [hs, columns_append] at hstop hstart
    omega
  · -- `run = more ++ s`
    have hmem : more.getLast hmore ∈ run := hs ▸ List.mem_append_left s (List.getLast_mem hmore)
    rw [h.word _ hmem] at hlast
    cases hlast

/-- **A column touches one word at most.** -/
theorem WordAt.unique (hwidth : ∀ c, 0 < width c) {w w' : Option (List Char)}
    (h : WordAt width line column w) (h' : WordAt width line column w') : w = w' := by
  cases h with
  | none hnone =>
    cases h' with
    | none _ => rfl
    | @some before run after hline hword hstart hstop =>
      obtain ⟨left, c, right, rfl, hleft, hright⟩ := exists_touched hword.ne_nil hstart hstop
      have hc := hnone (before ++ left) c (right ++ after) (by simp [hline]) hleft hright
      rw [hword.word c (by simp)] at hc
      cases hc
  | @some before run after hline hword hstart hstop =>
    cases h' with
    | none hnone =>
      obtain ⟨left, c, right, rfl, hleft, hright⟩ := exists_touched hword.ne_nil hstart hstop
      have hc := hnone (before ++ left) c (right ++ after) (by simp [hline]) hleft hright
      rw [hword.word c (by simp)] at hc
      cases hc
    | @some before' run' after' hline' hword' hstart' hstop' =>
      have hbefore : before = before' ∧ run ++ after = run' ++ after' := by
        rw [hline, List.append_assoc, List.append_assoc] at hline'
        obtain ⟨more, rfl, hrest⟩ | ⟨more, rfl, hrest⟩ := List.append_eq_append_iff.mp hline'
        · obtain rfl := hword.eq_nil_of_append hwidth hword' hrest hstop hstart'
          exact ⟨(List.append_nil _).symm, hrest⟩
        · obtain rfl := hword'.eq_nil_of_append hwidth hword hrest hstop' hstart
          exact ⟨List.append_nil _, hrest.symm⟩
      rw [hword.eq_takeWhile, hword'.eq_takeWhile, hbefore.2]

/-- The run around a word character: from what ends in front of it to what begins behind it. -/
theorem isWord_around {c : Char} (hc : isWordChar c = true) (before after : List Char) :
    IsWord (before.rdropWhile isWordChar)
      (before.rtakeWhile isWordChar ++ c :: after.takeWhile isWordChar)
      (after.dropWhile isWordChar) where
  ne_nil := by simp
  word d hd := by
    obtain hd | hd := List.mem_append.mp hd
    · exact List.mem_rtakeWhile_imp hd
    · obtain rfl | hd := List.mem_cons.mp hd
      · exact hc
      · exact List.mem_takeWhile_imp hd
  starts d hd := by
    obtain ⟨hne, rfl⟩ := List.mem_getLast?_eq_getLast hd
    exact Bool.eq_false_iff.mpr (List.rdropWhile_last_not _ _ hne)
  ends d hd := by
    have hhead := List.head?_dropWhile_not isWordChar after
    rw [Option.mem_def.mp hd] at hhead
    exact hhead

/-- A word character that a column touches is part of the word that it touches. -/
theorem WordAt.of_touched {before after : List Char} {c : Char}
    (hline : line = before ++ c :: after) (hc : isWordChar c = true)
    (hstart : columns width before ≤ column) (hstop : column ≤ columns width (before ++ [c])) :
    WordAt width line column
      (Option.some (before.rtakeWhile isWordChar ++ c :: after.takeWhile isWordChar)) := by
  have hbefore : before.rdropWhile isWordChar ++ before.rtakeWhile isWordChar = before :=
    List.rdropWhile_append_rtakeWhile
  have hcolumns := congrArg (columns width) hbefore
  rw [columns_append] at hcolumns
  refine .some ?_ (isWord_around hc before after) ?_ ?_
  · rw [hline, List.append_assoc, List.append_assoc, ← List.append_assoc, hbefore,
      List.cons_append, List.takeWhile_append_dropWhile]
  · omega
  · simp only [columns_append, columns_cons, columns_nil] at hstop ⊢
    omega

/-- **Every column has its answer.** -/
theorem exists_wordAt (width : Char → Nat) (line : List Char) (column : Nat) :
    ∃ w, WordAt width line column w := by
  by_cases h : ∃ before c after, line = before ++ c :: after ∧ columns width before ≤ column
      ∧ column ≤ columns width (before ++ [c]) ∧ isWordChar c = true
  · obtain ⟨before, c, after, hline, hstart, hstop, hc⟩ := h
    exact ⟨_, .of_touched hline hc hstart hstop⟩
  · refine ⟨_, .none fun before c after hline hstart hstop => ?_⟩
    rw [← Bool.not_eq_true]
    exact fun hc => h ⟨before, c, after, hline, hstart, hstop, hc⟩

/-- At a place with no word character at either side no word is touched. -/
theorem WordAt.none_of_boundary (hwidth : ∀ c, 0 < width c) {before after : List Char}
    (hline : line = before ++ after) (hbefore : ∀ c ∈ before.getLast?, isWordChar c = false)
    (hafter : ∀ c ∈ after.head?, isWordChar c = false) :
    WordAt width line (columns width before) Option.none := by
  refine .none fun left c right hsplit hstart hstop => ?_
  obtain ⟨more, rfl, rfl⟩ | ⟨more, rfl, hrest⟩ :=
    List.append_eq_append_iff.mp (hline.symm.trans hsplit)
  · obtain rfl : more = [] := eq_nil_of_columns hwidth (by rw [columns_append] at hstart; omega)
    exact hafter c rfl
  · cases more with
    | nil =>
      obtain rfl : after = c :: right := hrest.symm
      exact hafter c rfl
    | cons d more =>
      obtain ⟨rfl, -⟩ := List.cons_eq_cons.mp hrest
      obtain rfl : more = [] := eq_nil_of_columns hwidth (by
        simp only [columns_append, columns_cons, columns_nil] at hstop
        omega)
      exact hbefore c (by simp)

/-- Within a piece of the line without word characters no word is touched. -/
theorem WordAt.none_of_within {before piece after : List Char}
    (hline : line = before ++ piece ++ after) (hpiece : ∀ c ∈ piece, isWordChar c = false)
    (hstart : columns width before < column)
    (hstop : column < columns width (before ++ piece) ∨ after = []) :
    WordAt width line column Option.none := by
  refine .none fun left c right hsplit hleft hright => hpiece c ?_
  rw [hline, List.append_assoc] at hsplit
  -- `c` stands behind `before`
  obtain ⟨more, rfl, hrest⟩ :
      ∃ more, left = before ++ more ∧ piece ++ after = more ++ c :: right := by
    obtain ⟨more, hmore, hrest⟩ | ⟨more, hmore, hrest⟩ := List.append_eq_append_iff.mp hsplit
    · exact ⟨more, hmore, hrest⟩
    · cases more with
      | nil => exact ⟨[], by simpa using hmore.symm, hrest.symm⟩
      | cons d more =>
        obtain ⟨rfl, -⟩ := List.cons_eq_cons.mp hrest
        simp only [hmore, columns_append, columns_cons, columns_nil] at hstart hright
        omega
  -- and not behind `piece`
  have hbehind : ¬ ∃ s, more = piece ++ s ∧ after = s ++ c :: right := by
    rintro ⟨s, rfl, rfl⟩
    obtain hstop | hnil := hstop
    · simp only [columns_append] at hleft hstop
      omega
    · simp at hnil
  obtain hmore | ⟨s, hs, hrest⟩ := List.append_eq_append_iff.mp hrest
  · exact absurd hmore hbehind
  · cases s with
    | nil => exact absurd ⟨[], by simpa using hs.symm, hrest.symm⟩ hbehind
    | cons d s =>
      obtain ⟨rfl, -⟩ := List.cons_eq_cons.mp hrest
      simp [hs]

end

/-! ## The word that is found -/

/-- Found is what ends in front of so many characters with what begins behind them, if that is
anything. -/
theorem wordTouching_eq (line : List Char) (n : Nat) :
    wordTouching line n =
      (let run := (line.take n).rtakeWhile isWordChar ++ (line.drop n).takeWhile isWordChar
      if run = [] then none else some run) := by
  dsimp only [wordTouching, List.rtakeWhile]
  split
  case h_1 hright hleft => rw [hright, hleft, List.append_nil, if_pos rfl]
  case h_2 hnone =>
    rw [if_neg]
    intro hnil
    obtain ⟨hleft, hright⟩ := List.append_eq_nil_iff.mp hnil
    exact hnone hright hleft

section

variable {width : Char → Nat} {line : List Char} {n : Nat}

/-- **The word that is found is touched by the column behind so many characters.** -/
theorem wordAt_wordTouching (hwidth : ∀ c, 0 < width c) (line : List Char) (n : Nat) :
    WordAt width line (columns width (line.take n)) (wordTouching line n) := by
  rw [wordTouching_eq]
  have hline : line = line.take n ++ line.drop n := (List.take_append_drop n line).symm
  generalize line.take n = before at hline ⊢
  generalize line.drop n = after at hline ⊢
  dsimp only
  by_cases hafter : ∀ c ∈ after.head?, isWordChar c = false
  · rw [takeWhile_eq_nil hafter, List.append_nil]
    by_cases hbefore : ∀ c ∈ before.getLast?, isWordChar c = false
    · have hleft : before.rtakeWhile isWordChar = [] :=
        List.rtakeWhile_eq_nil_iff.mpr fun hne => by
          simp [hbefore _ (List.getLast?_eq_some_getLast hne)]
      rw [hleft, if_pos rfl]
      exact .none_of_boundary hwidth hline hbefore hafter
    · -- a word ends there
      push Not at hbefore
      obtain ⟨c, hc, hword⟩ := hbefore
      rw [ne_eq, Bool.not_eq_false] at hword
      obtain ⟨rest, rfl⟩ := List.getLast?_eq_some_iff.mp hc
      rw [List.rtakeWhile_concat_pos _ _ _ hword, if_neg (by simp)]
      have htouched : WordAt width line (columns width (rest ++ [c])) _ :=
        .of_touched (hline.trans (List.append_cons rest c after).symm) hword (by simp) le_rfl
      rwa [takeWhile_eq_nil hafter] at htouched
  · -- a word goes on behind it
    push Not at hafter
    obtain ⟨c, hc, hword⟩ := hafter
    rw [ne_eq, Bool.not_eq_false] at hword
    obtain ⟨rest, rfl⟩ := List.head?_eq_some_iff.mp hc
    rw [List.takeWhile_cons_of_pos hword, if_neg (by simp)]
    exact .of_touched hline hword le_rfl (by simp)

/-- It is the word of a column exactly if one word is touched by that column and by the one behind
so many characters. -/
theorem wordAt_wordTouching_iff (hwidth : ∀ c, 0 < width c) :
    WordAt width line n (wordTouching line n) ↔
      ∃ w, WordAt width line n w ∧ WordAt width line (columns width (line.take n)) w := by
  refine ⟨fun h => ⟨_, h, wordAt_wordTouching hwidth line n⟩, ?_⟩
  rintro ⟨w, hcolumn, htaken⟩
  exact (wordAt_wordTouching hwidth line n).unique hwidth htaken ▸ hcolumn

/-- The columns of so many characters are no fewer, within the line. -/
theorem le_columns_take (hwidth : ∀ c, 0 < width c) (hn : n ≤ columns width line) :
    n ≤ columns width (line.take n) := by
  by_cases hlength : n ≤ line.length
  · calc n = (line.take n).length := (List.length_take_of_le hlength).symm
      _ ≤ columns width (line.take n) := length_le_columns hwidth _
  · rwa [List.take_of_length_le (Nat.le_of_not_le hlength)]

/-- **Where no character before it takes more than one column, a column has its own word.** -/
theorem wordAt_of_narrow (hwidth : ∀ c, 0 < width c) (hn : n ≤ columns width line)
    (hnarrow : ∀ c ∈ line.take n, width c = 1) : WordAt width line n (wordTouching line n) := by
  have hcolumns : columns width (line.take n) = n := by
    refine Nat.le_antisymm ?_ (le_columns_take hwidth hn)
    rw [columns_eq_length hnarrow]
    exact List.length_take_le n line
  have h := wordAt_wordTouching hwidth line n
  rwa [hcolumns] at h

/-- If a word follows the first wide character, then the word is found too early: at the number of
characters in front of it, a column that stands between the wide character and the word. -/
theorem exists_found_early (hwidth : ∀ c, 0 < width c) {before after : List Char} {wide : Char}
    (hline : line = before ++ wide :: after) (hnarrow : ∀ c ∈ before, width c = 1)
    (hwide : 1 < width wide) (hword : isWordChar wide = false)
    (hafter : ∃ c ∈ after, isWordChar c = true) :
    ∃ n ≤ columns width line, WordAt width line n none ∧ wordTouching line n ≠ none := by
  obtain ⟨x, hx⟩ := Option.isSome_iff_exists.mp (List.find?_isSome.mpr hafter)
  obtain ⟨hxword, mid, rest, rfl, hmid⟩ := List.find?_eq_some_iff_append.mp hx
  have hsplit : line = before ++ (wide :: mid) ++ x :: rest := by
    rw [hline, List.append_assoc, List.cons_append]
  have hpiece : ∀ c ∈ wide :: mid, isWordChar c = false :=
    List.forall_mem_cons.mpr ⟨hword, fun c hc => by simpa using hmid c hc⟩
  have hbehind : columns width before < (before ++ (wide :: mid)).length := by
    rw [columns_eq_length hnarrow, List.length_append, List.length_cons]
    omega
  have hearly : (before ++ (wide :: mid)).length < columns width (before ++ (wide :: mid)) := by
    have hmidColumns := length_le_columns hwidth mid
    rw [columns_append, columns_cons, columns_eq_length hnarrow, List.length_append,
      List.length_cons]
    omega
  refine ⟨(before ++ (wide :: mid)).length, ?_, .none_of_within hsplit hpiece hbehind (.inl hearly),
    ?_⟩
  · rw [hsplit, columns_append (before ++ (wide :: mid))]
    omega
  · rw [wordTouching_eq, hsplit, List.drop_left, List.takeWhile_cons_of_pos hxword,
      if_neg (by simp)]
    exact Option.some_ne_none _

/-- **Behind the first wide character, if it is of no word, all columns have their own words exactly
if no word follows.** -/
theorem forall_wordAt_iff (hwidth : ∀ c, 0 < width c) {before after : List Char} {wide : Char}
    (hline : line = before ++ wide :: after) (hnarrow : ∀ c ∈ before, width c = 1)
    (hwide : 1 < width wide) (hword : isWordChar wide = false) :
    (∀ n ≤ columns width line, WordAt width line n (wordTouching line n))
      ↔ ∀ c ∈ after, isWordChar c = false := by
  constructor
  · intro h
    by_contra hafter
    obtain ⟨n, hn, hnone, hfound⟩ := exists_found_early hwidth hline hnarrow hwide hword
      (by simpa using hafter)
    exact hfound ((h n hn).unique hwidth hnone)
  · intro hafter n hn
    by_cases hle : n ≤ before.length
    · refine wordAt_of_narrow hwidth hn fun c hc => hnarrow c ?_
      rw [hline, List.take_append_of_le_length hle] at hc
      exact List.mem_of_mem_take hc
    · -- both columns stand behind `before`, where there is no word
      have hpiece : ∀ c ∈ wide :: after, isWordChar c = false :=
        List.forall_mem_cons.mpr ⟨hword, hafter⟩
      have hall : line = before ++ (wide :: after) ++ [] := by rw [hline, List.append_nil]
      have hbefore := columns_eq_length hnarrow
      have htaken := le_columns_take hwidth hn
      exact (wordAt_wordTouching_iff hwidth).mpr ⟨none,
        .none_of_within hall hpiece (by omega) (.inr rfl),
        .none_of_within hall hpiece (by omega) (.inr rfl)⟩

end

end SymbolQuery.Text

namespace SymbolQuery.Lookup

open Text (WordAt columns units)

/-! ## The name of a hover text -/

section

variable (p : Provider) (t : Nat)

/-- The word at a position of a document that can be read is the one found in its line. -/
theorem value_wordAt {deadline : Nat} {uri text line : String} {i : Nat}
    (hdocument : p.answer deadline (.document uri) = .ok (.ok text))
    (hline : (Text.lines text)[i]? = some line) (column : Nat) :
    (wordAt (m := Timed) deadline uri ⟨i, column⟩ ⟨p, none⟩ t).value
      = (Text.wordTouching line.toList column).map String.ofList := by
  rw [timeless.wordAt deadline uri _ p t]
  simp only [wordAt, document, Untimed.run_bind, Untimed.run_ask, hdocument, Untimed.run_pure,
    wordIn, hline]

theorem run_hoverAt_position (c : Config) {uri : String} {place : Position} {info : HoverInfo}
    (hhover : p.answer c.timeouts.hover (.hover uri place) = .ok (.ok (some info))) :
    (hoverAt (m := Untimed) c uri (.position place)).run p
      = Table.encode c.output .hover
          [[((wordAt (m := Untimed) c.timeouts.preview uri place).run p).getD "",
            (info.range.getD (.point place)).text, info.contents]] := by
  simp only [hoverAt, queryPoint, Untimed.run_bind, Untimed.run_pure, Untimed.run_ask, hhover,
    Answer.reply]
  cases info.range with
  | none => rfl
  | some r => rfl

/-- A hover text at a position is named for the word there. -/
theorem value_hover_atPosition (c : Config) {uri : String} {place : Position} {info : HoverInfo}
    (huri : Text.isBlankText uri = false)
    (hhover : p.answer c.timeouts.hover (.hover uri place) = .ok (.ok (some info))) :
    (hover (m := Timed) c (.atPosition uri place) ⟨p, none⟩ t).value
      = .ok (Table.encode c.output .hover
          [[(wordAt (m := Timed) c.timeouts.preview uri place ⟨p, none⟩ t).value.getD "",
            (info.range.getD (.point place)).text, info.contents]]) := by
  rw [timeless.hover c _ p t, timeless.wordAt _ uri place p t, ← run_hoverAt_position p c hhover,
    hover, withTarget, LookupRequest.target_atPosition, if_neg (by simp [huri])]
  rfl

end

/-- **Hover texts are named for the words behind so many characters.** In a document that can be
read the name at a column is always the word that the column behind so many characters touches,
columns being counted in the code units of UTF-16. So it is the word of the column exactly if both
columns touch one word, and it is wherever no character before it takes two units. In a line whose
first such character is of no word the names of all columns are right exactly if no word follows
it. -/
theorem hover_named_for_touched (c : Config) (p : Provider) (t : Nat) {uri text line : String}
    {i : Nat} (hdocument : p.answer c.timeouts.preview (.document uri) = .ok (.ok text))
    (hline : (Text.lines text)[i]? = some line) :
    let chars := line.toList
    let found := fun column =>
      (wordAt (m := Timed) c.timeouts.preview uri ⟨i, column⟩ ⟨p, none⟩ t).value
    let name := fun column => (found column).map String.toList
    (∀ column info, Text.isBlankText uri = false →
        p.answer c.timeouts.hover (.hover uri ⟨i, column⟩) = .ok (.ok (some info)) →
        (hover (m := Timed) c (.atPosition uri ⟨i, column⟩) ⟨p, none⟩ t).value
          = .ok (Table.encode c.output .hover
              [[(found column).getD "", (info.range.getD (.point ⟨i, column⟩)).text,
                info.contents]]))
      ∧ (∀ column, ∃! w, WordAt units chars column w)
      ∧ (∀ column, WordAt units chars (columns units (chars.take column)) (name column)
        ∧ (WordAt units chars column (name column) ↔ ∃ w, WordAt units chars column w
          ∧ WordAt units chars (columns units (chars.take column)) w))
      ∧ (∀ column ≤ columns units chars, (∀ ch ∈ chars.take column, units ch = 1) →
        WordAt units chars column (name column))
      ∧ ∀ before wide after, chars = before ++ wide :: after → (∀ ch ∈ before, units ch = 1) →
        units wide = 2 → Text.isWordChar wide = false →
        ((∀ column ≤ columns units chars, WordAt units chars column (name column))
          ↔ ∀ ch ∈ after, Text.isWordChar ch = false) := by
  intro chars found name
  have hname : ∀ column, name column = Text.wordTouching chars column := by
    intro column
    dsimp only [name, found]
    rw [value_wordAt p t hdocument hline, Option.map_map]
    simp [Function.comp_def, chars]
  simp only [hname]
  refine ⟨fun column info huri hhover => value_hover_atPosition p t c huri hhover, fun column => ?_,
    fun column => ⟨?_, ?_⟩, ?_, ?_⟩
  · obtain ⟨w, hw⟩ := Text.exists_wordAt units chars column
    exact ⟨w, hw, fun w' hw' => hw'.unique Text.units_pos hw⟩
  · exact Text.wordAt_wordTouching Text.units_pos chars column
  · exact Text.wordAt_wordTouching_iff Text.units_pos
  · exact fun column hcolumn hnarrow => Text.wordAt_of_narrow Text.units_pos hcolumn hnarrow
  · intro before wide after hsplit hnarrow hwide hword
    exact Text.forall_wordAt_iff Text.units_pos hsplit hnarrow (by omega) hword

/-- A provider with one text for all documents and an empty hover text everywhere. -/
def showsText (text : String) : Provider
  | .document _ => ⟨some 0, .ok text⟩
  | .hover _ _ => ⟨some 0, .ok (some ⟨"", none⟩)⟩
  | q => twoOfEach q

/-- Of two words behind a character of two units, the second is the name at the end of the first. -/
theorem hover_named_for_touched_wide :
    let c : Config := {}
    let line := "😀 foo bar"
    let w : World := ⟨showsText line, none⟩
    (hover (m := Timed) c (.atPosition "a" ⟨0, 6⟩) w 0).value.map Table.rows
        = .ok ["bar | 0:6-0:6 |  | EOL"]
      ∧ WordAt units line.toList 7 (some "bar".toList)
      ∧ ¬ ∀ column ≤ columns units line.toList,
        WordAt units line.toList column
          ((wordAt (m := Timed) c.timeouts.preview "a" ⟨0, column⟩ w 0).value.map
            String.toList) := by
  intro c line w
  have hdocument : (showsText line).answer c.timeouts.preview (.document "a")
      = .ok (.ok line) := rfl
  have hline : (Text.lines line)[0]? = some line := by decide +kernel
  obtain ⟨hnamed, -, htouched, -, hwide⟩ :=
    hover_named_for_touched c (showsText line) 0 hdocument hline
  have hcolumns : columns units (line.toList.take 6) = 7 := by decide +kernel
  have hbar : (wordAt (m := Timed) c.timeouts.preview "a" ⟨0, 6⟩ w 0).value.map String.toList
      = some "bar".toList := by decide +kernel
  have hsplit : line.toList = [] ++ '😀' :: " foo bar".toList := by decide +kernel
  refine ⟨?_, ?_, fun hall => ?_⟩
  · have hrows := congrArg (Except.map Table.rows) (hnamed 6 ⟨"", none⟩ (by decide +kernel) rfl)
    exact hrows.trans (by decide +kernel)
  · rw [← hcolumns, ← hbar]
    exact (htouched 6).1
  · have hnone := (hwide [] '😀' _ hsplit (fun _ h => by cases h) (by decide)
      (by decide +kernel)).mp hall
    exact absurd (hnone 'f' (by decide +kernel)) (by decide)

/-- Behind a character of two units the word that is found is not the one at the column. -/
theorem not_named_for_touched :
    let line := "😀 foo bar"
    (wordAt (m := Timed) 5000 "a" ⟨0, 6⟩ ⟨showsText line, none⟩ 0).value = some "bar"
      ∧ WordAt units line.toList 6 (some "foo".toList)
      ∧ ¬ WordAt units line.toList 6 (some "bar".toList) := by
  intro line
  have hfoo : WordAt units line.toList 6 (some "foo".toList) := by
    have hsplit : line.toList = ['😀', ' ', 'f', 'o'] ++ 'o' :: " bar".toList := by decide +kernel
    have hrun : ['😀', ' ', 'f', 'o'].rtakeWhile Text.isWordChar
        ++ 'o' :: " bar".toList.takeWhile Text.isWordChar = "foo".toList := by decide +kernel
    rw [← hrun]
    exact .of_touched hsplit (by decide) (by decide) (by decide)
  refine ⟨by decide +kernel, hfoo, fun hbar => ?_⟩
  exact absurd (hfoo.unique Text.units_pos hbar) (by decide +kernel)

end SymbolQuery.Lookup
