/-
Header lines: what a line says, and how a reader passes it.

Three kinds of lines stand in a header: those that give the length, the empty one that
ends the header, and others, which say nothing here. A whole line is passed according to
what it says (`scanHeader_of_line`). A line that is cut has no line feed, and behind it
the octets end; so whatever it seems to say, no message comes of it
(`scanHeader_of_cut`).
-/
import Mathlib.Data.List.TakeWhile
import SymbolQuery.Proofs.Utf8
import SymbolQuery.Rpc.Frame

set_option autoImplicit false

namespace SymbolQuery

namespace Text

/-! ## Trimming -/

theorem trimStartChars_append (s t : List Char) :
    trimStartChars (s ++ t)
      = if (trimStartChars s).isEmpty then trimStartChars t else trimStartChars s ++ t :=
  List.dropWhile_append

theorem trimEndChars_append_blank (s : List Char) {blanks : List Char}
    (h : blanks.all isBlank = true) : trimEndChars (s ++ blanks) = trimEndChars s := by
  have hdrop : blanks.reverse.dropWhile isBlank = [] :=
    List.dropWhile_eq_nil_iff.mpr fun c hc => List.all_eq_true.mp h c (List.mem_reverse.mp hc)
  rw [trimEndChars, List.reverse_append, List.dropWhile_append, hdrop, List.isEmpty_nil, if_pos rfl]
  rfl

/-- Blanks at the end are trimmed off. -/
theorem trimChars_append_blank (s : List Char) {blanks : List Char}
    (h : blanks.all isBlank = true) : trimChars (s ++ blanks) = trimChars s := by
  have hdrop : trimStartChars blanks = [] :=
    List.dropWhile_eq_nil_iff.mpr (List.all_eq_true.mp h)
  rw [trimChars, trimStartChars_append]
  by_cases hs : (trimStartChars s).isEmpty
  · rw [if_pos hs, hdrop, trimChars, List.isEmpty_iff.mp hs]
  · rw [if_neg hs, trimEndChars_append_blank _ h, trimChars]

/-- A blank at the start is trimmed off. -/
theorem trimChars_cons_blank {c : Char} (h : isBlank c = true) (s : List Char) :
    trimChars (c :: s) = trimChars s := by
  rw [trimChars, trimStartChars, List.dropWhile_cons_of_pos h]
  rfl

/-- A text whose last character is not blank keeps its end. -/
theorem trimEndChars_of_getLast {s : List Char} (hne : s ≠ [])
    (h : isBlank (s.getLast hne) = false) : trimEndChars s = s := by
  have hsplit : s.reverse = s.getLast hne :: s.dropLast.reverse := by
    conv_lhs => rw [← List.dropLast_append_getLast hne]
    rw [List.reverse_append, List.reverse_singleton, List.singleton_append]
  have hnot : ¬ isBlank (s.getLast hne) = true := by
    rw [h]
    exact Bool.false_ne_true
  rw [trimEndChars, hsplit, List.dropWhile_cons_of_neg hnot, ← hsplit, List.reverse_reverse]

/-- A text that begins and ends with characters that are not blank stays as it is. -/
theorem trimChars_of_ends {c : Char} {s : List Char} (hc : isBlank c = false)
    (h : isBlank ((c :: s).getLast (List.cons_ne_nil c s)) = false) :
    trimChars (c :: s) = c :: s := by
  have hnot : ¬ isBlank c = true := by
    rw [hc]
    exact Bool.false_ne_true
  rw [trimChars, trimStartChars, List.dropWhile_cons_of_neg hnot, trimEndChars_of_getLast _ h]

/-! ## Numbers -/

theorem isBlank_of_isDigit {c : Char} (h : c.isDigit = true) : isBlank c = false := by
  have hc : 48 ≤ c.toNat ∧ c.toNat ≤ 57 := Char.isDigit_iff_toNat.mp h
  unfold isBlank
  simp only [Bool.or_eq_false_iff, Bool.and_eq_false_iff, decide_eq_false_iff_not,
    beq_eq_false_iff_ne]
  omega

theorem digitValue?_of_isDigit {c : Char} (h : c.isDigit = true) :
    digitValue? c = some (c.toNat - '0'.toNat) := by
  have hc : '0' ≤ c ∧ c ≤ '9' := by
    rw [Char.le_def, Char.le_def]
    have hc := Char.isDigit_iff_toNat.mp h
    exact hc
  rw [digitValue?, if_pos hc]

/-- The value never falls while digits are appended. -/
theorem step_le_of_ofDigitChars_le {limit acc : Nat} {c : Char} {s : List Char}
    (hle : Nat.ofDigitChars 10 s (10 * acc + (c.toNat - '0'.toNat)) ≤ limit) :
    acc * 10 + (c.toNat - '0'.toNat) ≤ limit := by
  rw [Nat.ofDigitChars_eq_ofDigitChars_zero] at hle
  have hpos : 1 ≤ 10 ^ s.length := Nat.one_le_pow _ _ (by omega)
  have hmul := Nat.mul_le_mul_right (10 * acc + (c.toNat - '0'.toNat)) hpos
  omega

/-- Digits whose value is within the limit are read. -/
theorem readDigits_of_isDigit {limit acc : Nat} {s : List Char} (hs : ∀ c ∈ s, c.isDigit = true)
    (hle : Nat.ofDigitChars 10 s acc ≤ limit) :
    readDigits limit acc s = .ok (Nat.ofDigitChars 10 s acc) := by
  induction s generalizing acc with
  | nil => rfl
  | cons c s ih =>
    have hc : c.isDigit = true := hs c List.mem_cons_self
    rw [Nat.ofDigitChars_cons] at hle ⊢
    have hacc := step_le_of_ofDigitChars_le hle
    have hcomm : acc * 10 + (c.toNat - '0'.toNat) = 10 * acc + (c.toNat - '0'.toNat) := by omega
    rw [readDigits, digitValue?_of_isDigit hc]
    change (if acc * 10 + (c.toNat - '0'.toNat) ≤ limit then _ else _) = _
    rw [if_pos hacc, hcomm]
    exact ih (fun d hd => hs d (List.mem_cons_of_mem c hd)) hle

theorem isDigit_of_mem_toDigits {n : Nat} {c : Char} (h : c ∈ Nat.toDigits 10 n) :
    c.isDigit = true := Nat.isDigit_of_mem_toDigits (by omega) (by omega) h

/-- **A number reads back** from its digits. -/
theorem readUnsigned_toDigits {limit n : Nat} (h : n ≤ limit) :
    readUnsigned limit (Nat.toDigits 10 n) = .ok n := by
  have hdigits : readDigits limit 0 (Nat.toDigits 10 n) = .ok n := by
    have hvalue : Nat.ofDigitChars 10 (Nat.toDigits 10 n) 0 = n := Nat.ofDigitChars_ten_toDigits
    rw [readDigits_of_isDigit (fun c hc => isDigit_of_mem_toDigits hc) (by rw [hvalue]; exact h),
      hvalue]
  have hplus : '+' ∉ Nat.toDigits 10 n := fun hmem =>
    absurd (isDigit_of_mem_toDigits hmem) (by decide)
  cases hs : Nat.toDigits 10 n with
  | nil => exact absurd hs Nat.toDigits_ne_nil
  | cons c s =>
    rw [hs] at hdigits hplus
    have hc : c ≠ '+' := fun heq => hplus (heq ▸ List.mem_cons_self)
    rw [readUnsigned]
    · exact hdigits
    · intro heq
      exact absurd heq hc
    · intro _ _ heq
      exact absurd heq hc

end Text

namespace Rpc

/-! ## What a line says -/

/-- The octets of a line, the line feed at its end included. -/
def lineOctets (line : String) : List UInt8 := Text.encode (line ++ "\n")

/-- A line that is neither blank nor gives a length. -/
structure IsOther (line : String) : Prop where
  oneLine : '\n' ∉ line.toList
  notBlank : Text.trimChars line.toList ≠ []
  notLength : ¬ lengthHeader <+: Text.trimChars line.toList

instance (line : String) : Decidable (IsOther line) :=
  decidable_of_iff ('\n' ∉ line.toList ∧ Text.trimChars line.toList ≠ []
      ∧ ¬ lengthHeader <+: Text.trimChars line.toList)
    ⟨fun h => ⟨h.1, h.2.1, h.2.2⟩, fun h => ⟨h.oneLine, h.notBlank, h.notLength⟩⟩

/-- The line that gives a length. -/
def lengthLine (n : Nat) : String := "Content-Length: " ++ toString n ++ "\r"

/-- The line that ends a header. -/
def endLine : String := "\r"

theorem toList_lengthLine (n : Nat) :
    (lengthLine n).toList = (lengthHeader ++ ' ' :: Nat.toDigits 10 n) ++ ['\r'] := by
  have hname : "Content-Length: ".toList = lengthHeader ++ [' '] := by decide
  change ("Content-Length: " ++ toString n ++ "\r").toList = _
  rw [String.toList_append, String.toList_append, Nat.toString_eq_repr, Nat.toList_repr, hname,
    List.append_assoc lengthHeader, List.singleton_append]
  rfl

theorem newline_not_mem_lengthLine (n : Nat) : '\n' ∉ (lengthLine n).toList := by
  have hdigits : '\n' ∉ Nat.toDigits 10 n := fun h =>
    absurd (Text.isDigit_of_mem_toDigits h) (by decide)
  have hheader : '\n' ∉ lengthHeader := by decide
  rw [toList_lengthLine]
  simp [hdigits, hheader]

/-- The line feed is the only one in a line. -/
theorem lineOctets_eq (line : String) :
    lineOctets line = Text.encodeChars line.toList ++ [0x0A] := by
  rw [lineOctets, Text.encode_append, Text.encode_eq_encodeChars, Text.encode_eq_encodeChars]
  rfl

theorem length_lineOctets (line : String) :
    (lineOctets line).length = (Text.encodeChars line.toList).length + 1 := by
  rw [lineOctets_eq, List.length_append, List.length_singleton]

/-- What a line says, by its text without the blanks at both ends. -/
def saying : List Char → Except FrameFault HeaderLine
  | [] => .ok .blank
  | trimmed =>
    match Text.dropLead? lengthHeader trimmed with
    | none => .ok .other
    | some value =>
      match Text.readUnsigned Text.max64 (Text.trimChars value) with
      | .ok n => .ok (.length n)
      | .error fault => .error (.badLength fault)

theorem readHeaderLine_lineOctets (line : String) :
    readHeaderLine (lineOctets line) = saying (Text.trimChars line.toList) := by
  have htrim : Text.trimChars (line ++ "\n").toList = Text.trimChars line.toList := by
    rw [String.toList_append]
    exact Text.trimChars_append_blank _ (by decide)
  rw [← htrim, readHeaderLine, lineOctets, Text.encode_eq_encodeChars, Text.decode_encodeChars]
  rfl

theorem dropLead?_append (lead s : List Char) : Text.dropLead? lead (lead ++ s) = some s := by
  induction lead with
  | nil => rfl
  | cons c lead ih => rw [List.cons_append, Text.dropLead?, if_pos rfl, ih]

theorem dropLead?_eq_none {lead s : List Char} (h : ¬ lead <+: s) :
    Text.dropLead? lead s = none := by
  induction lead generalizing s with
  | nil => exact absurd List.nil_prefix h
  | cons c lead ih =>
    cases s with
    | nil => rfl
    | cons d s =>
      rw [Text.dropLead?]
      by_cases hcd : c = d
      · rw [if_pos hcd]
        apply ih
        intro hprefix
        apply h
        rw [List.cons_prefix_cons]
        exact ⟨hcd, hprefix⟩
      · rw [if_neg hcd]

theorem readHeaderLine_other {line : String} (h : IsOther line) :
    readHeaderLine (lineOctets line) = .ok .other := by
  rw [readHeaderLine_lineOctets]
  cases hs : Text.trimChars line.toList with
  | nil => exact absurd hs h.notBlank
  | cons c s =>
    have hnone : Text.dropLead? lengthHeader (c :: s) = none :=
      dropLead?_eq_none (hs ▸ h.notLength)
    rw [saying, hnone]
    exact List.cons_ne_nil c s

theorem readHeaderLine_end : readHeaderLine (lineOctets endLine) = .ok .blank := by
  rw [readHeaderLine_lineOctets]
  rfl

theorem readHeaderLine_length {n : Nat} (h : n ≤ Text.max64) :
    readHeaderLine (lineOctets (lengthLine n)) = .ok (.length n) := by
  have hdigit : ∀ c ∈ Nat.toDigits 10 n, Text.isBlank c = false :=
    fun c hc => Text.isBlank_of_isDigit (Text.isDigit_of_mem_toDigits hc)
  have hne : Nat.toDigits 10 n ≠ [] := Nat.toDigits_ne_nil
  have hvalue : Text.trimChars (' ' :: Nat.toDigits 10 n) = Nat.toDigits 10 n := by
    rw [Text.trimChars_cons_blank (by decide)]
    cases hs : Nat.toDigits 10 n with
    | nil => exact absurd hs hne
    | cons c s =>
      rw [hs] at hdigit
      exact Text.trimChars_of_ends (hdigit c List.mem_cons_self)
        (hdigit _ (List.getLast_mem (List.cons_ne_nil c s)))
  have hline : Text.trimChars (lengthHeader ++ ' ' :: Nat.toDigits 10 n)
      = lengthHeader ++ ' ' :: Nat.toDigits 10 n := by
    apply Text.trimChars_of_ends (by decide)
    -- the last character is the last digit
    have hlast : (lengthHeader ++ ' ' :: Nat.toDigits 10 n).getLast (by simp)
        = (Nat.toDigits 10 n).getLast hne := by
      rw [List.getLast_append_of_ne_nil _ (List.cons_ne_nil _ _), List.getLast_cons hne]
    exact (congrArg Text.isBlank hlast).trans (hdigit _ (List.getLast_mem hne))
  have htrim : Text.trimChars (lengthLine n).toList
      = lengthHeader ++ ' ' :: Nat.toDigits 10 n := by
    rw [toList_lengthLine, Text.trimChars_append_blank _ (by decide), hline]
  have hlead := dropLead?_append lengthHeader (' ' :: Nat.toDigits 10 n)
  rw [readHeaderLine_lineOctets, htrim]
  rw [saying, hlead]
  · dsimp only
    rw [hvalue, Text.readUnsigned_toDigits h]
  · exact List.cons_ne_nil _ _

/-! ## Passing lines -/

theorem takeLine_of_not_mem {octets : List UInt8} (h : 0x0A ∉ octets) :
    takeLine octets = (octets, none) := by
  induction octets with
  | nil => rfl
  | cons b octets ih =>
    have hb : b ≠ 0x0A := fun heq => h (heq ▸ List.mem_cons_self)
    rw [takeLine, if_neg hb, ih fun hmem => h (List.mem_cons_of_mem b hmem)]

theorem takeLine_append {line : List UInt8} (h : 0x0A ∉ line) (rest : List UInt8) :
    takeLine (line ++ 0x0A :: rest) = (line ++ [0x0A], some rest) := by
  induction line with
  | nil => rfl
  | cons b line ih =>
    have hb : b ≠ 0x0A := fun heq => h (heq ▸ List.mem_cons_self)
    rw [List.cons_append, takeLine, if_neg hb, ih fun hmem => h (List.mem_cons_of_mem b hmem)]
    rfl

/-- A line that is whole holds its line feed. -/
theorem ne_nil_of_takeLine {octets line rest : List UInt8}
    (h : takeLine octets = (line, some rest)) : line ≠ [] := by
  rintro rfl
  cases octets with
  | nil => cases h
  | cons b octets =>
    rw [takeLine] at h
    split at h
    · cases h
    · cases h

/-- A whole line is passed, according to what it says. -/
theorem scanHeader_of_line {octets line rest : List UInt8} (length : Option Nat)
    (h : takeLine octets = (line, some rest)) :
    scanHeader length octets
      = match readHeaderLine line with
        | .error fault => .fault fault
        | .ok .blank =>
          match length with
          | none => .fault .missingLength
          | some n => scanBody n rest
        | .ok (.length n) => scanHeader (some n) rest
        | .ok .other => scanHeader length rest := by
  conv_lhs => unfold scanHeader
  split
  · next heq =>
    rw [h] at heq
    exact absurd (Prod.mk.inj heq).1 (ne_nil_of_takeLine h)
  · next heq =>
    rw [h] at heq
    cases (Prod.mk.inj heq).2
  · next heq =>
    rw [h] at heq
    obtain ⟨rfl, hrest⟩ := Prod.mk.inj heq
    cases hrest
    rfl

/-- Where the octets end inside a line, no message comes of them. -/
theorem scanHeader_of_cut {octets line : List UInt8} (length : Option Nat)
    (h : takeLine octets = (line, none)) :
    ∃ fault, scanHeader length octets = .incomplete fault := by
  unfold scanHeader
  split
  · exact ⟨_, rfl⟩
  · split <;> exact ⟨_, rfl⟩
  · next heq =>
    rw [h] at heq
    cases (Prod.mk.inj heq).2

end Rpc

end SymbolQuery
