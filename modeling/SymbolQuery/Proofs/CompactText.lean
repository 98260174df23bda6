/-
Which characters stand in JSON text on one line.

Such a text is one line indeed: a line feed inside a string is escaped, and nothing else
writes one. It also shows by its last character what it is: what is neither a number nor
one of the three words ends with a quote or a closing bracket.

Both are read off the printer. Numbers take the work, since their layout has many cases;
one set of characters covers them all.
-/
import SymbolQuery.Json.Printer
import SymbolQuery.Proofs.HeaderLines

set_option autoImplicit false

namespace SymbolQuery.Json

/-! ## Numbers -/

/-- The characters that numbers are written with. -/
def IsNumberChar (c : Char) : Prop := c.isDigit = true ∨ c ∈ ['-', '.', 'e']

instance (c : Char) : Decidable (IsNumberChar c) := inferInstanceAs (Decidable (_ ∨ _))

theorem isNumberChar_of_all {s : List Char} (h : (s.all fun c => decide (IsNumberChar c)) = true) :
    ∀ c ∈ s, IsNumberChar c := by
  intro c hc
  exact of_decide_eq_true (List.all_eq_true.mp h c hc)

theorem isNumberChar_toDigits (n : Nat) : ∀ c ∈ Nat.toDigits 10 n, IsNumberChar c :=
  fun _ hc => Or.inl (Text.isDigit_of_mem_toDigits hc)

theorem isNumberChar_toString (i : Int) : ∀ c ∈ (toString i).toList, IsNumberChar c := by
  intro c hc
  cases i with
  | ofNat n =>
    change c ∈ (Nat.repr n).toList at hc
    rw [Nat.toList_repr] at hc
    exact isNumberChar_toDigits n c hc
  | negSucc n =>
    change c ∈ ("-" ++ Nat.repr (n + 1)).toList at hc
    rw [String.toList_append, Nat.toList_repr, List.mem_append] at hc
    obtain hc | hc := hc
    · exact isNumberChar_of_all (by decide) c hc
    · exact isNumberChar_toDigits (n + 1) c hc

/-- Padding of zeros, on either side of the digits, changes nothing. -/
theorem isNumberChar_zeros (k : Nat) : ∀ c ∈ List.replicate k '0', IsNumberChar c := by
  intro c hc
  rw [List.eq_of_mem_replicate hc]
  decide

theorem isNumberChar_layout (n : Nat) (e : Int) :
    ∀ c ∈ (Real.layout n e).toList, IsNumberChar c := by
  have hdigits := isNumberChar_toDigits n
  have hpoint : IsNumberChar '.' := by decide
  have hzero : IsNumberChar '0' := by decide
  have he : IsNumberChar 'e' := by decide
  unfold Real.layout
  generalize Nat.toDigits 10 n = digits at hdigits ⊢
  rw [String.toList_ofList]
  dsimp only
  split
  · simp only [List.forall_mem_append, List.forall_mem_cons]
    exact ⟨⟨hdigits, isNumberChar_zeros _⟩, hpoint, hzero, List.forall_mem_nil _⟩
  split
  · simp only [List.forall_mem_append, List.forall_mem_cons]
    exact ⟨⟨fun c hc => hdigits c (List.mem_of_mem_take hc), hpoint, List.forall_mem_nil _⟩,
      fun c hc => hdigits c (List.mem_of_mem_drop hc)⟩
  split
  · simp only [List.forall_mem_append, List.forall_mem_cons]
    exact ⟨⟨⟨hzero, hpoint, List.forall_mem_nil _⟩, isNumberChar_zeros _⟩, hdigits⟩
  · have htail := isNumberChar_toString ((digits.length : Int) + e - 1)
    -- one digit stands alone in front of the exponent, of several the first has a point behind it
    split
    · simp only [List.forall_mem_cons] at hdigits ⊢
      exact ⟨hdigits.1, he, htail⟩
    · simp only [List.forall_mem_cons, List.forall_mem_append] at hdigits ⊢
      exact ⟨⟨hdigits.1, hpoint, hdigits.2⟩, he, htail⟩
    · rw [List.forall_mem_cons]
      exact ⟨he, htail⟩

/-- A number is a word or made of the characters of numbers. -/
theorem number_text (n : Number) : n.text = "null" ∨ ∀ c ∈ n.text.toList, IsNumberChar c := by
  cases n with
  | int i => exact Or.inr (isNumberChar_toString i)
  | real bits =>
    have hsign : ∀ c ∈ (if bits.toNat / Real.signWeight = 1 then "-" else "").toList,
        IsNumberChar c := by
      split
      · exact isNumberChar_of_all (by decide)
      · exact isNumberChar_of_all (by decide)
    unfold Number.text Real.text
    dsimp only
    split
    · exact Or.inl rfl
    right
    split
    · rw [String.toList_append, List.forall_mem_append]
      exact ⟨hsign, isNumberChar_of_all (by decide)⟩
    · rw [String.toList_append, List.forall_mem_append]
      exact ⟨hsign, isNumberChar_layout _ _⟩

theorem not_mem_number {c : Char} (hc : ¬ IsNumberChar c) (hnull : c ∉ "null".toList)
    (n : Number) : c ∉ n.text.toList := by
  obtain htext | htext := number_text n
  · rw [htext]
    exact hnull
  · exact fun hmem => hc (htext c hmem)

/-! ## One line -/

theorem newline_not_mem_escapeChar (c : Char) : '\n' ∉ escapeChar c := by
  have hhex : ∀ n < 16, '\n' ≠ hexDigit n := by decide
  unfold escapeChar
  split
  · decide
  split
  · decide
  split
  · decide
  next hline =>
  split
  · decide
  split
  · decide
  split
  · decide
  split
  · decide
  split
  · next hcontrol =>
    have hhigh := hhex (c.toNat / 16) (by omega)
    have hlow := hhex (c.toNat % 16) (by omega)
    simp [hhigh, hlow]
  · rw [List.mem_singleton]
    exact fun heq => hline heq.symm

theorem newline_not_mem_quote (s : String) : '\n' ∉ (quote s).toList := by
  unfold quote
  rw [String.toList_ofList]
  simp [newline_not_mem_escapeChar]

mutual

/-- **A value takes one line.** -/
theorem newline_not_mem_compact : ∀ v : Json, '\n' ∉ v.compact.toList
  | .null => by decide
  | .bool true => by decide
  | .bool false => by decide
  | .num n => not_mem_number (by decide) (by decide) n
  | .str s => newline_not_mem_quote s
  | .arr items => by
    have hitems := newline_not_mem_compactItems true items
    simp [compact, hitems]
  | .obj fields => by
    have hfields := newline_not_mem_compactFields true fields
    simp [compact, hfields]

/-- So do the items of an array. -/
theorem newline_not_mem_compactItems :
    ∀ (first : Bool) (items : List Json), '\n' ∉ (compactItems first items).toList
  | _, [] => by simp [compactItems]
  | first, v :: rest => by
    have hitem := newline_not_mem_compact v
    have hrest := newline_not_mem_compactItems false rest
    cases first <;> simp [compactItems, hitem, hrest]

/-- So do the fields of an object. -/
theorem newline_not_mem_compactFields :
    ∀ (first : Bool) (fields : List (String × Json)), '\n' ∉ (compactFields first fields).toList
  | _, [] => by simp [compactFields]
  | first, (k, v) :: rest => by
    have hkey := newline_not_mem_quote k
    have hvalue := newline_not_mem_compact v
    have hrest := newline_not_mem_compactFields false rest
    cases first <;> simp [compactFields, hkey, hvalue, hrest]

end

/-! ## The last character -/

/-- What a string, an array or an object ends with. -/
def closers : List Char := ['"', ']', '\x7d']

/-- A text with a capital C is none of the words and no number, so it ends with a closer. -/
theorem ends_of_capital {v : Json} (h : 'C' ∈ v.compact.toList) :
    ∃ s, ∃ c ∈ closers, v.compact.toList = s ++ [c] := by
  cases v with
  | null => exact absurd h (by decide)
  | bool b => cases b <;> exact absurd h (by decide)
  | num n => exact absurd h (not_mem_number (by decide) (by decide) n)
  | str s =>
    refine ⟨'"' :: s.toList.flatMap escapeChar, '"', by decide, ?_⟩
    unfold compact quote
    rw [String.toList_ofList]
  | arr items =>
    refine ⟨("[" ++ compactItems true items).toList, ']', by decide, ?_⟩
    unfold compact
    rw [String.toList_append]
    rfl
  | obj fields =>
    refine ⟨("\x7b" ++ compactFields true fields).toList, '\x7d', by decide, ?_⟩
    unfold compact
    rw [String.toList_append]
    rfl

end SymbolQuery.Json
