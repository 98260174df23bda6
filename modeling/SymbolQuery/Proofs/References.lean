/-
References read back.

A reference is written as it is read, so a text that is read, written and read again gives
the same reference; and what the reading gives is described here without it. A file is
printable if it has no colon where a position may begin, except behind the letter of a
drive, and a position or a name follows it that can be told from it (`Printable`). Exactly
the printable references read back.
-/
import SymbolQuery.Cli.Reference
import SymbolQuery.Proofs.HeaderLines

set_option autoImplicit false

namespace SymbolQuery

namespace Text

/-! ## Cutting and trimming -/

theorem splitFirst?_eq_none {p : Char → Bool} {s : List Char} :
    splitFirst? p s = none ↔ ∀ c ∈ s, p c = false := by
  induction s with
  | nil => simp [splitFirst?]
  | cons c s ih => cases hc : p c <;> simp [splitFirst?, hc, ih]

/-- The first character that is looked for is the one that is cut at. -/
theorem splitFirst?_eq_some {p : Char → Bool} {s before after : List Char} :
    splitFirst? p s = some (before, after)
      ↔ ∃ c, s = before ++ c :: after ∧ p c = true ∧ ∀ d ∈ before, p d = false := by
  induction s generalizing before with
  | nil => simp [splitFirst?]
  | cons c s ih =>
    rw [splitFirst?]
    cases hc : p c with
    | true =>
      rw [if_pos rfl, Option.some.injEq, Prod.mk.injEq]
      constructor
      · rintro ⟨rfl, rfl⟩
        exact ⟨c, rfl, hc, List.forall_mem_nil _⟩
      · rintro ⟨d, hs, -, hbefore⟩
        cases before with
        | nil => exact ⟨rfl, (List.cons.inj hs).2⟩
        | cons x before =>
          obtain ⟨rfl, -⟩ := List.cons.inj hs
          exact absurd hc (by rw [hbefore c List.mem_cons_self]; decide)
    | false =>
      rw [if_neg Bool.false_ne_true, Option.map_eq_some_iff]
      constructor
      · rintro ⟨⟨b, a⟩, hcut, ⟨⟩⟩
        obtain ⟨d, rfl, hd, hb⟩ := ih.mp hcut
        exact ⟨d, rfl, hd, List.forall_mem_cons.mpr ⟨hc, hb⟩⟩
      · rintro ⟨d, hs, hd, hbefore⟩
        cases before with
        | nil =>
          obtain ⟨rfl, -⟩ := List.cons.inj hs
          exact absurd hd (by rw [hc]; decide)
        | cons x before =>
          obtain ⟨rfl, rfl⟩ := List.cons.inj hs
          exact ⟨(before, after), ih.mpr ⟨d, rfl, hd, fun e he =>
            hbefore e (List.mem_cons_of_mem c he)⟩, rfl⟩

theorem isBlank_of_mem_head?_dropWhile {s : List Char} {c : Char}
    (h : c ∈ (s.dropWhile isBlank).head?) : isBlank c = false := by
  have hhead := List.head?_dropWhile_not isBlank s
  rw [h] at hhead
  exact hhead

/-- A trimmed text does not end with a blank. -/
theorem isBlank_of_mem_getLast?_trimChars {s : List Char} {c : Char}
    (h : c ∈ (trimChars s).getLast?) : isBlank c = false := by
  rw [trimChars, trimEndChars, List.getLast?_reverse] at h
  exact isBlank_of_mem_head?_dropWhile h

theorem trimEndChars_isPrefix (s : List Char) : trimEndChars s <+: s := by
  have h := List.dropWhile_suffix (l := s.reverse) isBlank
  rw [← List.reverse_prefix, List.reverse_reverse] at h
  exact h

/-- A trimmed text does not begin with a blank. -/
theorem isBlank_of_mem_head?_trimChars {s : List Char} {c : Char}
    (h : c ∈ (trimChars s).head?) : isBlank c = false := by
  obtain ⟨rest, hrest⟩ := trimEndChars_isPrefix (trimStartChars s)
  refine isBlank_of_mem_head?_dropWhile (s := s) ?_
  change c ∈ (trimStartChars s).head?
  rw [← hrest, List.head?_append]
  rw [trimChars] at h
  rw [h]
  rfl

theorem trimChars_eq_self {s : List Char} (hhead : ∀ c ∈ s.head?, isBlank c = false)
    (hlast : ∀ c ∈ s.getLast?, isBlank c = false) : trimChars s = s := by
  cases s with
  | nil => rfl
  | cons c s => exact trimChars_of_ends (hhead c rfl) (hlast _ (List.getLast?_eq_some_getLast _))

/-- What trimming does not change is trimmed. -/
theorem trimChars_of_trim {s : String} (h : trim s = s) : trimChars s.toList = s.toList := by
  rw [← String.toList_ofList (l := trimChars s.toList)]
  exact congrArg String.toList h

theorem trimChars_trimChars (s : List Char) : trimChars (trimChars s) = trimChars s :=
  trimChars_eq_self (fun _ => isBlank_of_mem_head?_trimChars)
    fun _ => isBlank_of_mem_getLast?_trimChars

theorem mem_of_mem_trimChars {s : List Char} {c : Char} (h : c ∈ trimChars s) : c ∈ s :=
  (List.dropWhile_suffix isBlank).subset ((trimEndChars_isPrefix _).subset h)

/-- A number that is read is within the limit. -/
theorem le_of_readDigits {limit acc n : Nat} {s : List Char} (hacc : acc ≤ limit)
    (h : readDigits limit acc s = .ok n) : n ≤ limit := by
  induction s generalizing acc with
  | nil => exact Except.ok.inj h ▸ hacc
  | cons c s ih =>
    rw [readDigits] at h
    split at h
    · cases h
    · split at h
      · next hle => exact ih hle h
      · cases h

theorem le_of_readUnsigned {limit n : Nat} {s : List Char} (h : readUnsigned limit s = .ok n) :
    n ≤ limit := by
  unfold readUnsigned at h
  split at h
  · cases h
  · cases h
  · exact le_of_readDigits (Nat.zero_le limit) h
  · exact le_of_readDigits (Nat.zero_le limit) h

end Text

namespace Reference

/-! ## Names -/

theorem splitName_eq_none {s l : List Char} : splitName s = (l, none) ↔ l = s ∧ '#' ∉ s := by
  unfold splitName
  cases hcut : Text.splitFirst? (· = '#') s.reverse with
  | none =>
    have hnot : '#' ∉ s := fun hmem => by
      have hall := Text.splitFirst?_eq_none.mp hcut '#' (List.mem_reverse.mpr hmem)
      exact absurd rfl (of_decide_eq_false hall)
    exact ⟨fun h => ⟨(Prod.mk.inj h).1.symm, hnot⟩, fun h => by rw [h.1]⟩
  | some cut =>
    refine ⟨fun h => (by cases h), fun ⟨_, hnot⟩ => ?_⟩
    obtain ⟨c, hs, hc, -⟩ := Text.splitFirst?_eq_some.mp hcut
    rw [of_decide_eq_true hc] at hs
    refine absurd (List.mem_reverse.mp ?_) hnot
    rw [hs]
    exact List.mem_append_right _ List.mem_cons_self

/-- The last hash sign is the one that is cut at. -/
theorem splitName_eq_some {s l n : List Char} :
    splitName s = (l, some n) ↔ s = l ++ '#' :: n ∧ '#' ∉ n := by
  have hcut : splitName s = (l, some n)
      ↔ Text.splitFirst? (· = '#') s.reverse = some (n.reverse, l.reverse) := by
    unfold splitName
    rcases Text.splitFirst? (· = '#') s.reverse with _ | ⟨after, before⟩
    · simp
    · simp only [Prod.mk.injEq, Option.some.injEq, List.reverse_eq_iff]
      exact And.comm
  rw [hcut, Text.splitFirst?_eq_some]
  constructor
  · rintro ⟨c, hs, hc, hn⟩
    rw [of_decide_eq_true hc, List.reverse_eq_iff] at hs
    refine ⟨by rw [hs]; simp, fun hmem => ?_⟩
    exact absurd rfl (of_decide_eq_false (hn '#' (List.mem_reverse.mpr hmem)))
  · rintro ⟨rfl, hn⟩
    refine ⟨'#', by simp, rfl, fun d hd => decide_eq_false ?_⟩
    rintro rfl
    exact hn (List.mem_reverse.mp hd)

/-! ## Colons -/

/-- A position begins with such a character, or is refused for it. -/
def Begins (c : Char) : Prop := isDigit c = true ∨ c = '-'

instance (c : Char) : Decidable (Begins c) := inferInstanceAs (Decidable (_ ∨ _))

/-- No colon stands where a position may begin. -/
def Calm (s : List Char) : Prop :=
  ∀ (before : List Char) (c : Char) (after : List Char),
    s = before ++ ':' :: c :: after → ¬ Begins c

theorem calm_nil : Calm [] := by
  intro before c after h
  cases before <;> cases h

theorem calm_cons {c : Char} {s : List Char} :
    Calm (c :: s) ↔ (c = ':' → ∀ d ∈ s.head?, ¬ Begins d) ∧ Calm s := by
  constructor
  · intro h
    refine ⟨?_, fun before d after hs => h (c :: before) d after (by rw [hs]; rfl)⟩
    rintro rfl d hd
    obtain ⟨after, rfl⟩ := List.head?_eq_some_iff.mp hd
    exact h [] d after rfl
  · rintro ⟨hhead, hs⟩ before d after heq
    cases before with
    | nil =>
      obtain ⟨rfl, rfl⟩ := List.cons.inj heq
      exact hhead rfl d rfl
    | cons x before =>
      obtain ⟨rfl, rfl⟩ := List.cons.inj heq
      exact hs before d after rfl

/-- What is cut off with more text before it. -/
theorem map_lead_eq_some {lead file rest : List Char}
    {cut : Except Fault (Option (List Char × List Char))} :
    cut.map (Option.map fun (file, p) => (lead ++ file, p)) = .ok (some (file, rest))
      ↔ ∃ f, cut = .ok (some (f, rest)) ∧ file = lead ++ f := by
  rcases cut with _ | (_ | ⟨f, p⟩)
  · simp [Except.map]
  · simp [Except.map]
  · simp only [Except.map, Option.map, Except.ok.injEq, Option.some.injEq, Prod.mk.injEq]
    constructor
    · rintro ⟨rfl, rfl⟩
      exact ⟨f, ⟨rfl, rfl⟩, rfl⟩
    · rintro ⟨_, ⟨rfl, rfl⟩, rfl⟩
      exact ⟨rfl, rfl⟩

theorem map_lead_eq_none {lead : List Char} {cut : Except Fault (Option (List Char × List Char))} :
    cut.map (Option.map fun (file, p) => (lead ++ file, p)) = .ok none ↔ cut = .ok none := by
  rcases cut with _ | (_ | _) <;> simp [Except.map]

/-- What is cut at a colon where a position may begin. -/
theorem splitAtColon_of_begins {d : Char} (h : Begins d) (s : List Char) :
    splitAtColon (':' :: d :: s)
      = if isDigit d then .ok (some ([], d :: s)) else .error .negative := by
  by_cases hdigit : isDigit d = true
  · rw [splitAtColon, if_pos hdigit, if_pos hdigit]
  · rw [splitAtColon, if_neg hdigit, if_pos (h.resolve_left hdigit), if_neg hdigit]

/-- Any other character is passed over. -/
theorem splitAtColon_cons {c : Char} {s : List Char}
    (h : c = ':' → ∀ d ∈ s.head?, ¬ Begins d) :
    splitAtColon (c :: s)
      = (splitAtColon s).map (Option.map fun (file, p) => ([c] ++ file, p)) := by
  by_cases hc : c = ':'
  · subst hc
    cases s with
    | nil => rfl
    | cons d s =>
      have hd := h rfl d rfl
      rw [splitAtColon, if_neg fun hdigit => hd (.inl hdigit),
        if_neg fun hminus => hd (.inr hminus)]
      rfl
  · cases s <;> simp [splitAtColon, hc]

/-- Where a character is not passed over, a position begins behind it. -/
theorem begins_of_not {c : Char} {s : List Char} (h : ¬ (c = ':' → ∀ d ∈ s.head?, ¬ Begins d)) :
    c = ':' ∧ ∃ d s', s = d :: s' ∧ Begins d := by
  rw [Classical.not_imp] at h
  refine ⟨h.1, ?_⟩
  cases s with
  | nil => exact absurd (fun d hd => (by cases hd)) h.2
  | cons d s' =>
    refine ⟨d, s', rfl, Classical.byContradiction fun hd => h.2 ?_⟩
    rintro _ ⟨⟩
    exact hd

/-- **Nothing is cut off a calm text, and only there nothing is.** -/
theorem splitAtColon_eq_none {s : List Char} : splitAtColon s = .ok none ↔ Calm s := by
  induction s with
  | nil => exact ⟨fun _ => calm_nil, fun _ => rfl⟩
  | cons c s ih =>
    by_cases h : c = ':' → ∀ d ∈ s.head?, ¬ Begins d
    · rw [splitAtColon_cons h, map_lead_eq_none, ih, calm_cons]
      exact ⟨fun hs => ⟨h, hs⟩, And.right⟩
    · obtain ⟨rfl, d, s', rfl, hd⟩ := begins_of_not h
      rw [splitAtColon_of_begins hd, calm_cons]
      refine ⟨fun heq => ?_, fun hcalm => absurd hcalm.1 h⟩
      split at heq <;> cases heq

/-- **What is cut off is calm**, and a digit follows the colon that is cut at. -/
theorem splitAtColon_eq_some {s file rest : List Char} :
    splitAtColon s = .ok (some (file, rest))
      ↔ s = file ++ ':' :: rest ∧ Calm file ∧ ∃ d ∈ rest.head?, isDigit d = true := by
  induction s generalizing file with
  | nil => simp [splitAtColon]
  | cons c s ih =>
    by_cases h : c = ':' → ∀ d ∈ s.head?, ¬ Begins d
    · rw [splitAtColon_cons h, map_lead_eq_some]
      constructor
      · rintro ⟨f, hcut, rfl⟩
        obtain ⟨rfl, hcalm, hdigit⟩ := ih.mp hcut
        refine ⟨rfl, calm_cons.mpr ⟨fun hc d (hd : f.head? = some d) => h hc d ?_, hcalm⟩, hdigit⟩
        rw [List.head?_append, hd]
        rfl
      · rintro ⟨heq, hcalm, hdigit⟩
        cases file with
        | nil =>
          obtain ⟨rfl, rfl⟩ := List.cons.inj heq
          obtain ⟨d, hd, hdigit⟩ := hdigit
          exact absurd (.inl hdigit) (h rfl d hd)
        | cons x f =>
          obtain ⟨rfl, rfl⟩ := List.cons.inj heq
          exact ⟨f, ih.mpr ⟨rfl, (calm_cons.mp hcalm).2, hdigit⟩, rfl⟩
    · obtain ⟨rfl, d, s', rfl, hd⟩ := begins_of_not h
      rw [splitAtColon_of_begins hd]
      constructor
      · intro heq
        split at heq
        · next hdigit =>
          cases heq
          exact ⟨rfl, calm_nil, d, rfl, hdigit⟩
        · cases heq
      · rintro ⟨heq, hcalm, e, he, hdigit⟩
        cases file with
        | nil =>
          obtain ⟨-, rfl⟩ := List.cons.inj heq
          cases he
          rw [if_pos hdigit]
        | cons x f =>
          -- a colon with another one behind it is passed over
          obtain ⟨rfl, htail⟩ : ':' = x ∧ d :: s' = f ++ ':' :: rest := List.cons.inj heq
          cases f with
          | nil =>
            obtain ⟨rfl, -⟩ := List.cons.inj htail
            exact absurd hd (by decide)
          | cons y f =>
            obtain ⟨rfl, -⟩ := List.cons.inj htail
            exact absurd hd ((calm_cons.mp hcalm).1 rfl d rfl)

/-! ## Drives -/

/-- Cuts off the letter of a drive with its colon, if anything follows them. -/
def cutDrive : List Char → List Char × List Char
  | c :: ':' :: d :: rest =>
    if isLetter c then ([c, ':'], d :: rest) else ([], c :: ':' :: d :: rest)
  | s => ([], s)

/-- The position is looked for behind the drive. -/
theorem splitPosition_eq (s : List Char) :
    splitPosition s = (splitAtColon (cutDrive s).2).map
      (Option.map fun (file, p) => ((cutDrive s).1 ++ file, p)) := by
  have hnothing : splitAtColon s
      = (splitAtColon s).map (Option.map fun (file, p) => ([] ++ file, p)) := by
    rcases splitAtColon s with _ | (_ | _) <;> rfl
  fun_cases cutDrive s with
  | case1 c d rest h => rw [splitPosition, if_pos h]; rfl
  | case2 c d rest h => rw [splitPosition, if_neg h]; exact hnothing
  | case3 _ h =>
    rw [splitPosition]
    · exact hnothing
    · exact h

/-- A text begins with a drive or not. -/
theorem cutDrive_cases (s : List Char) :
    (∃ x d rest, s = x :: ':' :: d :: rest ∧ isLetter x = true ∧ cutDrive s = ([x, ':'], d :: rest))
      ∨ (∀ x d rest, s = x :: ':' :: d :: rest → isLetter x = false) ∧ cutDrive s = ([], s) := by
  fun_cases cutDrive s with
  | case1 c d rest h => exact .inl ⟨c, d, rest, rfl, h, rfl⟩
  | case2 c d rest h =>
    refine .inr ⟨?_, rfl⟩
    rintro _ _ _ ⟨⟩
    exact Bool.eq_false_iff.mpr h
  | case3 _ h => exact .inr ⟨fun x d rest hs => absurd hs (h x d rest), rfl⟩

/-- The file of a place, as it is cut: a drive, if the place begins with one, and a calm rest. -/
def IsFile (place file : List Char) : Prop := ∃ f, file = (cutDrive place).1 ++ f ∧ Calm f

theorem splitPosition_eq_none {s : List Char} : splitPosition s = .ok none ↔ IsFile s s := by
  rw [splitPosition_eq, map_lead_eq_none, splitAtColon_eq_none]
  obtain ⟨x, d, rest, rfl, -, hcut⟩ | ⟨-, hcut⟩ := cutDrive_cases s
  · rw [IsFile, hcut]
    refine ⟨fun h => ⟨d :: rest, rfl, h⟩, ?_⟩
    rintro ⟨f, heq, h⟩
    obtain rfl : d :: rest = f :=
      List.append_cancel_left (show [x, ':'] ++ _ = [x, ':'] ++ f from heq)
    exact h
  · rw [IsFile, hcut]
    refine ⟨fun h => ⟨s, rfl, h⟩, ?_⟩
    rintro ⟨f, heq, h⟩
    rw [heq]
    exact h

theorem cutDrive_append (s : List Char) : (cutDrive s).1 ++ (cutDrive s).2 = s := by
  fun_cases cutDrive s <;> rfl

theorem splitPosition_eq_some {s file rest : List Char} :
    splitPosition s = .ok (some (file, rest))
      ↔ s = file ++ ':' :: rest ∧ IsFile s file ∧ ∃ d ∈ rest.head?, isDigit d = true := by
  have hs := cutDrive_append s
  rw [splitPosition_eq, map_lead_eq_some, IsFile]
  constructor
  · rintro ⟨f, hcut, rfl⟩
    obtain ⟨heq, hcalm, hdigit⟩ := splitAtColon_eq_some.mp hcut
    exact ⟨by rw [List.append_assoc, ← heq, hs], ⟨f, rfl, hcalm⟩, hdigit⟩
  · rintro ⟨heq, ⟨f, rfl, hcalm⟩, hdigit⟩
    refine ⟨f, splitAtColon_eq_some.mpr ⟨?_, hcalm, hdigit⟩, rfl⟩
    rw [List.append_assoc] at heq
    exact List.append_cancel_left (hs.trans heq)

/-- What follows a file in a place: nothing, or a colon and a position. -/
def IsTail (tail : List Char) : Prop := tail = [] ∨ ∃ d rest, tail = ':' :: d :: rest

/-- **The files of places, said without cutting them.** A position seems to begin in a file only
behind the letter of a drive, and the file is not such a letter with the colon of a position behind
it. -/
theorem isFile_iff {file tail : List Char} (htail : IsTail tail) :
    IsFile (file ++ tail) file
      ↔ (∀ before c after, file = before ++ ':' :: c :: after → Begins c →
            ∃ x, before = [x] ∧ isLetter x = true)
        ∧ (tail ≠ [] → ∀ x, file = [x] → isLetter x = false) := by
  obtain ⟨x, d, rest, hplace, hletter, hcut⟩ | ⟨hplain, hcut⟩ := cutDrive_cases (file ++ tail)
  · rw [IsFile, hcut]
    constructor
    · rintro ⟨f, rfl, hcalm⟩
      refine ⟨fun before c after heq hc => ?_, fun _ y hy => ?_⟩
      · -- a colon behind the drive would not be calm
        rcases before with _ | ⟨y, _ | ⟨z, before⟩⟩
        · obtain ⟨rfl, -⟩ := List.cons.inj heq
          exact absurd hletter (by decide)
        · obtain ⟨rfl, -⟩ := List.cons.inj heq
          exact ⟨x, rfl, hletter⟩
        · obtain ⟨-, heq⟩ := List.cons.inj heq
          obtain ⟨-, heq⟩ := List.cons.inj heq
          exact absurd hc (hcalm before c after heq)
      · cases hy
    · rintro ⟨hcolons, hsingle⟩
      rcases file with _ | ⟨y, _ | ⟨z, f⟩⟩
      · obtain rfl | ⟨_, _, rfl⟩ := htail
        · cases hplace
        · obtain ⟨rfl, -⟩ := List.cons.inj hplace
          exact absurd hletter (by decide)
      · obtain ⟨rfl, rfl⟩ := List.cons.inj hplace
        rw [hsingle (List.cons_ne_nil _ _) y rfl] at hletter
        cases hletter
      · obtain ⟨rfl, hbehind⟩ := List.cons.inj hplace
        obtain ⟨rfl, -⟩ : z = ':' ∧ f ++ tail = d :: rest := List.cons.inj hbehind
        refine ⟨f, rfl, fun before c after heq hc => ?_⟩
        obtain ⟨_, hbefore, _⟩ := hcolons (y :: ':' :: before) c after (by rw [heq]; rfl) hc
        cases hbefore
  · rw [IsFile, hcut]
    constructor
    · rintro ⟨f, rfl, hcalm⟩
      refine ⟨fun before c after heq hc => absurd hc (hcalm before c after heq), ?_⟩
      rintro hne y hy
      obtain rfl | ⟨d, rest, rfl⟩ := htail
      · exact absurd rfl hne
      · exact hplain y d rest (by rw [hy]; rfl)
    · rintro ⟨hcolons, hsingle⟩
      refine ⟨file, rfl, fun before c after heq hc => ?_⟩
      obtain ⟨x, rfl, hletter⟩ := hcolons before c after heq hc
      rw [hplain x c (after ++ tail) (by rw [heq]; rfl)] at hletter
      cases hletter

/-! ## Positions -/

theorem toList_text_position (p : Position) :
    p.text.toList = Nat.toDigits 10 p.line ++ ':' :: Nat.toDigits 10 p.character := by
  change (toString p.line ++ ":" ++ toString p.character).toList = _
  rw [String.toList_append, String.toList_append, Nat.toString_eq_repr, Nat.toString_eq_repr,
    Nat.toList_repr, Nat.toList_repr, List.append_assoc]
  rfl

theorem readPosition_text {p : Position} (h : p.Fits) : readPosition p.text.toList = .ok p := by
  have hcut : Text.splitFirst? (· = ':') p.text.toList
      = some (Nat.toDigits 10 p.line, Nat.toDigits 10 p.character) := by
    refine Text.splitFirst?_eq_some.mpr ⟨':', toList_text_position p, rfl, fun c hc => ?_⟩
    refine decide_eq_false ?_
    rintro rfl
    exact absurd (Text.isDigit_of_mem_toDigits hc) (by decide)
  rw [readPosition, hcut]
  simp only [Text.readUnsigned_toDigits h.1, Text.readUnsigned_toDigits h.2]

theorem fits_of_readPosition {s : List Char} {p : Position} (h : readPosition s = .ok p) :
    p.Fits := by
  unfold readPosition at h
  split at h
  · cases h
  · split at h
    · cases h
    · next hline =>
      split at h
      · cases h
      · next hcharacter =>
        cases h
        exact ⟨Text.le_of_readUnsigned hline, Text.le_of_readUnsigned hcharacter⟩

/-- The text of a position begins with a digit. -/
theorem head?_text_position (p : Position) : ∃ d ∈ p.text.toList.head?, isDigit d = true := by
  rw [toList_text_position]
  cases hdigits : Nat.toDigits 10 p.line with
  | nil => exact absurd hdigits Nat.toDigits_ne_nil
  | cons d rest =>
    have hd : d.isDigit = true := Text.isDigit_of_mem_toDigits (hdigits ▸ List.mem_cons_self)
    exact ⟨d, rfl, hd⟩

/-- The text of a position ends with a digit. -/
theorem isBlank_getLast?_text_position {p : Position} {c : Char} (h : c ∈ p.text.toList.getLast?) :
    Text.isBlank c = false := by
  rw [toList_text_position, List.getLast?_append_of_ne_nil _ (List.cons_ne_nil _ _),
    List.getLast?_cons_of_ne_nil Nat.toDigits_ne_nil] at h
  exact Text.isBlank_of_isDigit (Text.isDigit_of_mem_toDigits (List.mem_of_getLast? h))

theorem hash_not_mem_text_position (p : Position) : '#' ∉ p.text.toList := by
  rw [toList_text_position]
  have hdigits : ∀ n : Nat, '#' ∉ Nat.toDigits 10 n := fun n h =>
    absurd (Text.isDigit_of_mem_toDigits h) (by decide)
  simp [hdigits]

/-! ## The parts of a written reference -/

/-- The characters of a position behind a file. -/
def positionPart : Option Position → List Char
  | some p => ':' :: p.text.toList
  | none => []

/-- The characters of a name behind a place. -/
def namePart : Option String → List Char
  | some n => '#' :: n.toList
  | none => []

/-- What stands before the hash sign of a written reference. -/
def place (r : Reference) : List Char := r.file.toList ++ positionPart r.position

theorem toList_text (r : Reference) : r.text.toList = place r ++ namePart r.name := by
  rcases r with ⟨file, _ | p, _ | n⟩ <;> simp [text, place, positionPart, namePart]

theorem isTail_positionPart (position : Option Position) : IsTail (positionPart position) := by
  cases position with
  | none => exact .inl rfl
  | some p =>
    obtain ⟨d, hd, _⟩ := head?_text_position p
    obtain ⟨rest, hrest⟩ := List.head?_eq_some_iff.mp hd
    exact .inr ⟨d, rest, by rw [positionPart, hrest]⟩

/-- **A reference that can be written.** -/
structure Printable (r : Reference) : Prop where
  /-- Something is named. -/
  target : r.position.isSome ∨ r.name.isSome
  fits : ∀ p ∈ r.position, p.Fits
  name : ∀ n ∈ r.name, n ≠ "" ∧ Text.trim n = n ∧ '#' ∉ n.toList
  start : ∀ c ∈ r.file.toList.head?, Text.isBlank c = false
  /-- A hash sign of the file is not the last one. -/
  hash : '#' ∈ r.file.toList → r.name.isSome
  /-- A position seems to begin in the file only behind the letter of a drive and its colon. Then
  something follows the two of them, so they are taken for a drive. -/
  colons : ∀ before c after, r.file.toList = before ++ ':' :: c :: after → Begins c →
    ∃ x, before = [x] ∧ isLetter x = true
  /-- The file is not the letter of a drive with the colon of the position behind it. -/
  letter : r.position.isSome → ∀ x, r.file.toList = [x] → isLetter x = false

/-! ## Written references are read -/

variable {r : Reference}

theorem trimChars_text (h : Printable r) : Text.trimChars r.text.toList = r.text.toList := by
  rw [toList_text, place]
  refine Text.trimChars_eq_self (fun c hc => ?_) fun c hc => ?_
  · cases hfile : r.file.toList with
    | cons x file =>
      rw [hfile] at hc
      cases hc
      exact h.start c (by rw [hfile]; rfl)
    | nil =>
      rw [hfile] at hc
      cases hposition : r.position with
      | some p =>
        rw [hposition] at hc
        cases hc
        rfl
      | none =>
        cases hname : r.name with
        | some n =>
          rw [hposition, hname] at hc
          cases hc
          rfl
        | none =>
          rw [hposition, hname] at hc
          cases hc
  · cases hname : r.name with
    | some n =>
      obtain ⟨hne, htrim, -⟩ := h.name n hname
      have hne : n.toList ≠ [] := fun hnil => hne (String.toList_eq_nil_iff.mp hnil)
      rw [hname, namePart, List.getLast?_append_of_ne_nil _ (List.cons_ne_nil _ _),
        List.getLast?_cons_of_ne_nil hne, ← Text.trimChars_of_trim htrim] at hc
      exact Text.isBlank_of_mem_getLast?_trimChars hc
    | none =>
      cases hposition : r.position with
      | some p =>
        obtain ⟨d, hd, -⟩ := head?_text_position p
        have hne : p.text.toList ≠ [] := fun hnil => by
          rw [hnil] at hd
          cases hd
        rw [hname, namePart, List.append_nil, hposition, positionPart,
          List.getLast?_append_of_ne_nil _ (List.cons_ne_nil _ _),
          List.getLast?_cons_of_ne_nil hne] at hc
        exact isBlank_getLast?_text_position hc
      | none => simpa [hname, hposition] using h.target

theorem splitName_text (h : Printable r) :
    splitName r.text.toList = (place r, r.name.map String.toList) := by
  rw [toList_text]
  cases hname : r.name with
  | some n => exact splitName_eq_some.mpr ⟨rfl, (h.name n hname).2.2⟩
  | none =>
    refine splitName_eq_none.mpr ⟨(List.append_nil _).symm, ?_⟩
    have hfile : '#' ∉ r.file.toList := fun hmem => by simpa [hname] using h.hash hmem
    have hposition : '#' ∉ positionPart r.position := by
      cases r.position <;> simp [positionPart, hash_not_mem_text_position]
    simp [namePart, place, hfile, hposition]

theorem splitPosition_place (h : Printable r) :
    splitPosition (place r) = .ok (r.position.map fun p => (r.file.toList, p.text.toList)) := by
  -- the place as it was written is cut where the file ends
  have hfile : IsFile (place r) r.file.toList := by
    refine (isFile_iff (isTail_positionPart r.position)).mpr ⟨h.colons, fun htail => h.letter ?_⟩
    cases hposition : r.position with
    | some p => rfl
    | none => exact absurd (by rw [hposition]; rfl) htail
  cases hposition : r.position with
  | some p =>
    refine splitPosition_eq_some.mpr ⟨?_, hfile, head?_text_position p⟩
    rw [place, hposition]
    rfl
  | none =>
    have hplace : place r = r.file.toList := by
      rw [place, hposition]
      exact List.append_nil _
    exact splitPosition_eq_none.mpr (hplace ▸ hfile)

/-- **A printable reference reads back.** -/
theorem parse_text_of_printable (h : Printable r) : parse r.text = .ok r := by
  have hlocation : parseLocation (place r) r.name = .ok r := by
    unfold parseLocation
    rw [splitPosition_place h]
    cases hposition : r.position with
    | some p =>
      simp only [Option.map, readPosition_text (h.fits p hposition), String.ofList_toList]
      rw [← hposition]
    | none =>
      cases hname : r.name with
      | some n =>
        have hplace : String.ofList (place r) = r.file := by simp [place, hposition, positionPart]
        simp only [Option.map, hplace]
        rw [← hposition, ← hname]
      | none => simpa [hname, hposition] using h.target
  have hne : r.text.toList ≠ [] := by
    rw [toList_text]
    intro hnil
    obtain ⟨hplace, hname⟩ := List.append_eq_nil_iff.mp hnil
    have hposition := (List.append_eq_nil_iff.mp hplace).2
    rcases h.target with htarget | htarget <;> obtain ⟨a, ha⟩ := Option.isSome_iff_exists.mp htarget
    · rw [ha] at hposition
      cases hposition
    · rw [ha] at hname
      cases hname
  -- the parts are found again in the order in which the text is cut: ends, name, position
  unfold parse parseChars
  rw [trimChars_text h]
  split
  · next hnil => exact absurd hnil hne
  · rw [splitName_text h]
    cases hname : r.name with
    | none =>
      rw [hname] at hlocation
      exact hlocation
    | some n =>
      rw [hname] at hlocation
      obtain ⟨hempty, htrim, -⟩ := h.name n hname
      have hempty : n.toList ≠ [] := fun hnil => hempty (String.toList_eq_nil_iff.mp hnil)
      simp only [Option.map, Text.trimChars_of_trim htrim]
      rw [String.ofList_toList]
      exact hlocation

/-! ## What is read can be written -/

theorem printable_of_parseLocation {location : List Char} {name : Option String}
    (h : parseLocation location name = .ok r)
    (hname : ∀ n ∈ name, n ≠ "" ∧ Text.trim n = n ∧ '#' ∉ n.toList)
    (hstart : ∀ c ∈ location.head?, Text.isBlank c = false)
    (hhash : '#' ∈ location → name.isSome) : Printable r := by
  -- the position of the text may be written otherwise than that of the reference
  unfold parseLocation at h
  split at h
  · cases h
  · next file rest hcut =>
    obtain ⟨rfl, hfile, d, hd, hdigit⟩ := splitPosition_eq_some.mp hcut
    have htail : IsTail (':' :: rest) := by
      obtain ⟨more, rfl⟩ := List.head?_eq_some_iff.mp hd
      exact .inr ⟨d, more, rfl⟩
    obtain ⟨hcolons, hsingle⟩ := (isFile_iff htail).mp hfile
    split at h
    · cases h
    · next p hread =>
      cases h
      refine ⟨.inl rfl, ?_, hname, ?_, ?_, ?_, ?_⟩
      · rintro _ ⟨⟩
        exact fits_of_readPosition hread
      · intro c hc
        rw [String.toList_ofList] at hc
        exact hstart c (by rw [List.head?_append, show file.head? = some c from hc]; rfl)
      · rw [String.toList_ofList]
        exact fun hmem => hhash (List.mem_append_left _ hmem)
      · rw [String.toList_ofList]
        exact hcolons
      · rw [String.toList_ofList]
        exact fun _ => hsingle (List.cons_ne_nil _ _)
  · next hcut =>
    have hfile : IsFile (location ++ []) location :=
      (List.append_nil location).symm ▸ splitPosition_eq_none.mp hcut
    obtain ⟨hcolons, -⟩ := (isFile_iff (.inl rfl)).mp hfile
    split at h
    · next n =>
      cases h
      refine ⟨.inr rfl, fun p hp => (by cases hp), hname, ?_, fun _ => rfl, ?_,
        fun hp => (by cases hp)⟩
      · rw [String.toList_ofList]
        exact hstart
      · rw [String.toList_ofList]
        exact hcolons
    · cases h

/-- **What is read is printable.** -/
theorem printable_of_parse {input : String} (h : parse input = .ok r) : Printable r := by
  unfold parse parseChars at h
  split at h
  · cases h
  · next htrimmed =>
    have hstart : ∀ c ∈ (Text.trimChars input.toList).head?, Text.isBlank c = false :=
      fun _ => Text.isBlank_of_mem_head?_trimChars
    split at h
    · next location hsplit =>
      obtain ⟨rfl, hhash⟩ := splitName_eq_none.mp hsplit
      exact printable_of_parseLocation h (fun n hn => (by cases hn)) hstart
        fun hmem => absurd hmem hhash
    · next location name hsplit =>
      obtain ⟨htext, hhash⟩ := splitName_eq_some.mp hsplit
      split at h
      · cases h
      · next hne =>
        refine printable_of_parseLocation h ?_ (fun c hc => hstart c ?_) fun _ => rfl
        · rintro _ ⟨⟩
          refine ⟨fun hempty => hne ?_, ?_, ?_⟩
          · rw [← String.toList_ofList (l := Text.trimChars name), hempty]
            rfl
          · rw [Text.trim, String.toList_ofList, Text.trimChars_trimChars]
          · rw [String.toList_ofList]
            exact fun hmem => hhash (Text.mem_of_mem_trimChars hmem)
        · rw [htext, List.head?_append, show location.head? = some c from hc]
          rfl

/-- **The printable references are those that read back.** -/
theorem printable_iff : Printable r ↔ parse r.text = .ok r :=
  ⟨parse_text_of_printable, printable_of_parse⟩

end Reference

end SymbolQuery
