/-
Looking for a word by index.

A word is found by taking characters from both sides of a column. It can also be looked for by
the indices of the line: from the character at the column, or directly behind a word from the
one before it, back to the last character and on to the first one that belong to no word. That
search reads by number at every step. It stays within every line, whatever the column, and gives
the word that is found: the maximal run around the index it starts from.
-/
import SymbolQuery.Proofs.IndexedAccess
import SymbolQuery.Proofs.TouchedWords

set_option autoImplicit false

namespace SymbolQuery.Text

open Indexed

/-! ## The search -/

/-- Whether the character at an index is a word character; it is not where the line has ended. -/
def inWord (chars : List Char) (i : Nat) : Bool := (chars[i]?).any isWordChar

/-- The index to look around: the column, at most the end of the line, or the index before it if a
word ends there. -/
def startIndex (chars : List Char) (column : Nat) : Reading Nat := do
  let i := min column chars.length
  if !inWord chars i && 0 < i then
    let before ← less i 1
    if isWordChar (← item chars before) then return before else return i
  else
    return i

/-- The piece of the line around an index, from behind the last character before it that is no word
character up to the first one that is none. -/
def runAround (chars : List Char) (i : Nat) : Reading (List Char) := do
  let before ← slice chars 0 i
  let start := (lastIdx? (fun c => !isWordChar c) before).elim 0 (· + 1)
  let behind ← slice chars i chars.length
  let stop := (behind.findIdx? fun c => !isWordChar c).elim chars.length (i + ·)
  slice chars start stop

/-- The word that a column touches, looked for by index. -/
def scanWord (chars : List Char) (column : Nat) : Reading (Option (List Char)) := do
  let i ← startIndex chars column
  if inWord chars i then return some (← runAround chars i) else return none

/-! ## Runs around an index -/

/-- Every character takes one column. -/
def single (_ : Char) : Nat := 1

theorem single_pos (c : Char) : 0 < single c := Nat.one_pos

theorem columns_single (s : List Char) : columns single s = s.length :=
  columns_eq_length fun _ _ => rfl

/-- The maximal run of word characters that holds the character at an index. -/
def IsRun (chars : List Char) (i : Nat) (run : List Char) : Prop :=
  ∃ before after, chars = before ++ run ++ after ∧ IsWord before run after
    ∧ before.length ≤ i ∧ i < (before ++ run).length

/-- What a search from an index is to give: the run that holds the character there; if that is no
word character, the run that holds the one before it; and nothing if neither is one. -/
inductive RunFrom (chars : List Char) (i : Nat) : Option (List Char) → Prop
  | here {run : List Char} (hrun : IsRun chars i run) : RunFrom chars i (some run)
  | before {run : List Char} (hhere : inWord chars i = false) (hpos : 0 < i)
      (hrun : IsRun chars (i - 1) run) : RunFrom chars i (some run)
  | none (hhere : inWord chars i = false) (hbefore : 0 < i → inWord chars (i - 1) = false) :
      RunFrom chars i none

section

variable {chars run : List Char} {i : Nat}

theorem inWord_iff : inWord chars i = true ↔ ∃ c, chars[i]? = some c ∧ isWordChar c = true := by
  rw [inWord, Option.any_eq_true]

/-- The character at an index of a word, between those before and those behind it. -/
theorem exists_split (h : inWord chars i = true) :
    ∃ c, chars = chars.take i ++ c :: chars.drop (i + 1) ∧ isWordChar c = true
      ∧ i < chars.length := by
  obtain ⟨c, hc, hword⟩ := inWord_iff.mp h
  obtain ⟨hi, rfl⟩ := List.getElem?_eq_some_iff.mp hc
  refine ⟨chars[i], ?_, hword, hi⟩
  rw [← List.drop_eq_getElem_cons hi, List.take_append_drop]

/-- A run is touched from either side of each of its characters. -/
theorem IsRun.wordAt {column : Nat} (h : IsRun chars i run) (hle : i ≤ column)
    (hsucc : column ≤ i + 1) : WordAt single chars column (some run) := by
  obtain ⟨before, after, hline, hword, hstart, hstop⟩ := h
  refine .some hline hword ?_ ?_
  · rw [columns_single]
    exact hstart.trans hle
  · rw [columns_single]
    exact hsucc.trans hstop

/-- The characters before an index: those before the run and those that it takes of them. -/
theorem length_before (hi : i ≤ chars.length) :
    ((chars.take i).rdropWhile isWordChar).length + ((chars.take i).rtakeWhile isWordChar).length
      = i := by
  rw [← List.length_append, List.rdropWhile_append_rtakeWhile, List.length_take_of_le hi]

/-- What is taken from both sides of an index of a word is the run there. -/
theorem isRun_taken (h : inWord chars i = true) :
    IsRun chars i
      ((chars.take i).rtakeWhile isWordChar ++ (chars.drop i).takeWhile isWordChar) := by
  obtain ⟨c, hline, hc, hi⟩ := exists_split h
  have hdrop : chars.drop i = c :: chars.drop (i + 1) := by
    conv_lhs => rw [hline]
    exact List.drop_left' (List.length_take_of_le hi.le)
  have hlength := length_before hi.le
  rw [hdrop, List.takeWhile_cons_of_pos hc]
  refine ⟨(chars.take i).rdropWhile isWordChar, (chars.drop (i + 1)).dropWhile isWordChar, ?_,
    isWord_around hc _ _, ?_, ?_⟩
  · rw [← List.append_assoc, List.rdropWhile_append_rtakeWhile, List.append_assoc,
      List.cons_append, List.takeWhile_append_dropWhile]
    exact hline
  · omega
  · -- the run goes on behind `i` characters, since `c` is one of it
    rw [List.length_append, List.length_append, List.length_cons]
    omega

/-! ## The search stays within the line -/

/-- **Around any index within the line the search reads within it**, and it takes from both
sides what belongs to a word. -/
theorem runAround_eq (h : i ≤ chars.length) :
    runAround chars i
      = .ok ((chars.take i).rtakeWhile isWordChar ++ (chars.drop i).takeWhile isWordChar) := by
  have hbefore : slice chars 0 i = .ok (chars.take i) :=
    slice_eq_ok_iff.mpr ⟨Nat.zero_le i, h, rfl⟩
  have hbehind : slice chars i chars.length = .ok (chars.drop i) :=
    slice_eq_ok_iff.mpr ⟨h, le_rfl, by rw [List.take_length]⟩
  have hlength : i + (chars.drop i).length = chars.length := by
    rw [List.length_drop]
    omega
  have hstop := elim_findIdx? isWordChar (chars.drop i) i
  rw [hlength] at hstop
  simp only [runAround, hbefore, hbehind, ok_bind, elim_lastIdx?, hstop]
  -- the piece starts behind what is left out before `i`, and stops behind what is taken from `i` on
  have hright : (chars.drop i).takeWhile isWordChar <+: chars.drop i :=
    List.takeWhile_prefix isWordChar
  refine slice_eq_ok_iff.mpr ⟨?_, ?_, ?_⟩
  · have hleft := length_before h
    omega
  · have hle := hright.length_le
    omega
  · have hpiece : chars.take i ++ (chars.drop i).takeWhile isWordChar
        = (chars.take i).rdropWhile isWordChar
          ++ ((chars.take i).rtakeWhile isWordChar ++ (chars.drop i).takeWhile isWordChar) := by
      rw [← List.append_assoc, List.rdropWhile_append_rtakeWhile]
    rw [List.take_add, ← List.prefix_iff_eq_take.mp hright, hpiece, List.drop_left]

/-- The search starts before the column if a word ends there, and else at the column. -/
theorem startIndex_eq (chars : List Char) (column : Nat) :
    let i := min column chars.length
    startIndex chars column
      = .ok (if inWord chars i = false ∧ 0 < i ∧ inWord chars (i - 1) = true
        then i - 1 else i) := by
  dsimp only [startIndex]
  have hi : min column chars.length ≤ chars.length := Nat.min_le_right column chars.length
  generalize min column chars.length = i at hi ⊢
  by_cases hbehind : inWord chars i = false ∧ 0 < i
  · -- the index before is read, so it must be there and `i` not zero
    have hless : less i 1 = .ok (i - 1) := less_eq_ok_iff.mpr (by omega)
    obtain ⟨c, hc⟩ : ∃ c, chars[i - 1]? = some c := ⟨_, List.getElem?_eq_getElem (by omega)⟩
    have hword : inWord chars (i - 1) = isWordChar c := by rw [inWord, hc, Option.any_some]
    rw [if_pos (by simpa using hbehind), hless, ok_bind, item_eq_ok_iff.mpr hc, ok_bind, hword]
    cases isWordChar c with
    | true => rw [if_pos rfl, if_pos ⟨hbehind.1, hbehind.2, rfl⟩]; rfl
    | false => rw [if_neg Bool.false_ne_true, if_neg fun h => Bool.false_ne_true h.2.2]; rfl
  · rw [if_neg (by simpa using hbehind), if_neg fun h => hbehind ⟨h.1, h.2.1⟩]
    rfl

/-- From an index of a word the search gives the run there. -/
theorem scanWord_of_inWord {column : Nat} (hstart : startIndex chars column = .ok i)
    (hword : inWord chars i = true) :
    ∃ run, scanWord chars column = .ok (some run) ∧ IsRun chars i run := by
  obtain ⟨-, -, -, hi⟩ := exists_split hword
  refine ⟨_, ?_, isRun_taken hword⟩
  rw [scanWord, hstart, ok_bind, if_pos hword, runAround_eq hi.le]
  rfl

theorem scanWord_of_not_inWord {column : Nat} (hstart : startIndex chars column = .ok i)
    (hword : inWord chars i = false) : scanWord chars column = .ok none := by
  rw [scanWord, hstart, ok_bind, hword, if_neg Bool.false_ne_true]
  rfl

/-- **The search gives what it is to give**, whatever the column. -/
theorem exists_scanWord (chars : List Char) (column : Nat) :
    ∃ w, scanWord chars column = .ok w ∧ RunFrom chars (min column chars.length) w := by
  have hstart := startIndex_eq chars column
  dsimp only at hstart
  generalize min column chars.length = i at hstart ⊢
  cases hhere : inWord chars i with
  | true =>
    rw [if_neg fun h => Bool.false_ne_true (h.1.symm.trans hhere)] at hstart
    obtain ⟨run, hscan, hrun⟩ := scanWord_of_inWord hstart hhere
    exact ⟨some run, hscan, .here hrun⟩
  | false =>
    by_cases hbefore : 0 < i ∧ inWord chars (i - 1) = true
    · rw [if_pos ⟨hhere, hbefore⟩] at hstart
      obtain ⟨run, hscan, hrun⟩ := scanWord_of_inWord hstart hbefore.2
      exact ⟨some run, hscan, .before hhere hbefore.1 hrun⟩
    · rw [if_neg fun h => hbefore h.2] at hstart
      refine ⟨none, scanWord_of_not_inWord hstart hhere, .none hhere fun hpos => ?_⟩
      exact Bool.eq_false_iff.mpr fun hword => hbefore ⟨hpos, hword⟩

/-! ## The word that is found -/

/-- No word is touched at an index with no word character at either side. -/
theorem wordAt_none (hi : i ≤ chars.length) (hhere : inWord chars i = false)
    (hbefore : 0 < i → inWord chars (i - 1) = false) : WordAt single chars i none := by
  have hnone := WordAt.none_of_boundary single_pos (List.take_append_drop i chars).symm
  rw [columns_single, List.length_take_of_le hi] at hnone
  refine hnone (fun c hc => ?_) fun c hc => ?_
  · have hpos : 0 < i := by
      rw [Nat.pos_iff_ne_zero]
      rintro rfl
      cases hc
    have hlast : chars[i - 1]? = some c := by
      rw [Option.mem_def, List.getLast?_take, if_neg hpos.ne',
        List.getElem?_eq_getElem (by omega), Option.some_or] at hc
      rw [List.getElem?_eq_getElem (by omega), hc]
    have hfalse := hbefore hpos
    rwa [inWord, hlast, Option.any_some] at hfalse
  · rw [List.head?_drop] at hc
    rwa [inWord, Option.mem_def.mp hc, Option.any_some] at hhere

/-- What a search from an index is to give is the word touched there. -/
theorem RunFrom.wordAt {w : Option (List Char)} (hi : i ≤ chars.length) (h : RunFrom chars i w) :
    WordAt single chars i w := by
  cases h with
  | here hrun => exact hrun.wordAt le_rfl (Nat.le_succ i)
  | before hhere hpos hrun => exact hrun.wordAt (Nat.sub_le i 1) (by omega)
  | none hhere hbefore => exact wordAt_none hi hhere hbefore

end

/-- **The search by index finds the word.** Whatever the column, no index and no end of a piece
lies outside the line, and no difference is below zero. The answer is the only one that a search
from the column, or from the end of the line for a column behind it, is to give. A word that is
found is a piece of the line, not empty, between characters of no word or the ends of the line. -/
theorem scanned_word_is_run (chars : List Char) (column : Nat) :
    let found := wordTouching chars column
    scanWord chars column = .ok found
      ∧ (∀ w, RunFrom chars (min column chars.length) w ↔ w = found)
      ∧ ∀ run, found = some run → ∃ before after, chars = before ++ run ++ after
        ∧ IsWord before run after := by
  intro found
  have hi : min column chars.length ≤ chars.length := Nat.min_le_right column chars.length
  have htouched : WordAt single chars (min column chars.length) found := by
    have h := wordAt_wordTouching single_pos chars column
    rwa [columns_single, List.length_take] at h
  -- whatever the search may give is touched by the column, which touches one word at most
  have honly : ∀ w, RunFrom chars (min column chars.length) w → w = found :=
    fun w hw => (hw.wordAt hi).unique single_pos htouched
  obtain ⟨w, hscan, hw⟩ := exists_scanWord chars column
  obtain rfl := honly w hw
  refine ⟨hscan, fun w' => ⟨honly w', fun h => h ▸ hw⟩, fun run hrun => ?_⟩
  rw [hrun] at htouched
  cases htouched with
  | some hline hword _ _ => exact ⟨_, _, hline, hword⟩

/-- The word that ends at a bracket. -/
example : scanWord "total = compute_sum(a, b);".toList 19 = .ok (some "compute_sum".toList) := by
  decide +kernel

end SymbolQuery.Text
