/-
Paths survive as identifiers.

A character of a path is written as it is if it is unreserved, and else as the triples of its
octets. Read back, a triple gives its octet and an unreserved character its own, so the octets
of the path come back, and from these the path. A percent sign of the path is written as a
triple as well; so whatever stands behind it in the path is not taken for digits.
-/
import SymbolQuery.Path
import SymbolQuery.Proofs.PercentDecoding

set_option autoImplicit false

namespace SymbolQuery.Uri

/-! ## How an identifier is written -/

/-- The digits that triples are written with. -/
def capitalDigits : List Char :=
  ['0', '1', '2', '3', '4', '5', '6', '7', '8', '9', 'A', 'B', 'C', 'D', 'E', 'F']

/-- Characters that stand for themselves, and triples with capital digits. -/
inductive Spelled : List Char → Prop
  | nil : Spelled []
  | plain {c : Char} {rest : List Char} (hc : isUnreserved c = true) (h : Spelled rest) :
    Spelled (c :: rest)
  | triple {high low : Char} {rest : List Char} (hhigh : high ∈ capitalDigits)
      (hlow : low ∈ capitalDigits) (h : Spelled rest) : Spelled ('%' :: high :: low :: rest)

theorem hexDigit_mem {n : Nat} (h : n < 16) : hexDigit n ∈ capitalDigits := by
  have hall : ∀ m ∈ List.range 16, hexDigit m ∈ capitalDigits := by decide
  exact hall n (List.mem_range.mpr h)

theorem spelled_triples (octets : List UInt8) {rest : List Char} (h : Spelled rest) :
    Spelled (octets.flatMap triple ++ rest) := by
  induction octets with
  | nil => exact h
  | cons b octets ih =>
    have hb := b.toNat_lt
    exact .triple (hexDigit_mem (by omega)) (hexDigit_mem (by omega)) ih

theorem spelled_encode (path : List Char) : Spelled (path.flatMap encodeChar) := by
  induction path with
  | nil => exact .nil
  | cons c path ih =>
    rw [List.flatMap_cons, encodeChar]
    split
    · next hc => exact .plain hc ih
    · exact spelled_triples _ ih

/-! ## Reading back -/

/-- A digit of a triple is an ASCII character, and gives its value back. -/
theorem hexDigit_spec {n : Nat} (h : n < 16) :
    (hexDigit n).val.toNat ≤ 0x7F
      ∧ hexOctet? (UInt8.ofNat (hexDigit n).val.toNat) = some (UInt8.ofNat n) := by
  have hall : ∀ m ∈ List.range 16, (hexDigit m).val.toNat ≤ 0x7F
      ∧ hexOctet? (UInt8.ofNat (hexDigit m).val.toNat) = some (UInt8.ofNat m) := by decide
  exact hall n (List.mem_range.mpr h)

/-- **A triple reads back** as its octet. -/
theorem decodeOctets_encode_triple (b : UInt8) (rest : List UInt8) :
    decodeOctets (Text.encodeChars (triple b) ++ rest) = b :: decodeOctets rest := by
  have hb := b.toNat_lt
  obtain ⟨hhigh, hhighValue⟩ := hexDigit_spec (show b.toNat / 16 < 16 by omega)
  obtain ⟨hlow, hlowValue⟩ := hexDigit_spec (show b.toNat % 16 < 16 by omega)
  have hoctets : Text.encodeChars (triple b)
      = [0x25, UInt8.ofNat (hexDigit (b.toNat / 16)).val.toNat,
        UInt8.ofNat (hexDigit (b.toNat % 16)).val.toNat] := by
    rw [triple, Text.encodeChars, List.flatMap_cons, List.flatMap_cons, List.flatMap_cons,
      Text.encodeChar_of_ascii hhigh, Text.encodeChar_of_ascii hlow]
    rfl
  have hvalue : UInt8.ofNat (b.toNat / 16) * 16 + UInt8.ofNat (b.toNat % 16) = b := by
    simp only [← UInt8.toNat_inj, UInt8.toNat_add, UInt8.toNat_mul, UInt8.toNat_ofNat',
      UInt8.reduceToNat]
    omega
  rw [hoctets]
  refine (decodeOctets_triple (escaped?_percent hhighValue hlowValue) rest).trans ?_
  rw [hvalue]

theorem decodeOctets_encode_triples (octets rest : List UInt8) :
    decodeOctets (Text.encodeChars (octets.flatMap triple) ++ rest)
      = octets ++ decodeOctets rest := by
  induction octets with
  | nil => rfl
  | cons b octets ih =>
    rw [List.flatMap_cons, Text.encodeChars_append, List.append_assoc,
      decodeOctets_encode_triple, ih]
    rfl

/-- What stands for itself is an ASCII character, and no percent sign. -/
theorem isUnreserved_spec {c : Char} (h : isUnreserved c = true) :
    c.val.toNat ≤ 0x7F ∧ c ≠ '%' := by
  unfold isUnreserved at h
  simp only [Bool.or_eq_true, Bool.and_eq_true, decide_eq_true_eq, beq_iff_eq, or_assoc] at h
  have hrange : ∀ low high : Char, high.val.toNat ≤ 0x7F → '%'.val.toNat < low.val.toNat →
      low ≤ c ∧ c ≤ high → c.val.toNat ≤ 0x7F ∧ c ≠ '%' := by
    intro low high hhigh hlow hc
    simp only [Char.le_def, UInt32.le_iff_toNat_le] at hc
    refine ⟨by omega, ?_⟩
    rintro rfl
    omega
  rcases h with h | h | h | rfl | rfl | rfl | rfl | rfl
  · exact hrange _ _ (by decide) (by decide) h
  · exact hrange _ _ (by decide) (by decide) h
  · exact hrange _ _ (by decide) (by decide) h
  all_goals exact ⟨by decide, by decide⟩

/-- **A character reads back** as its octets. -/
theorem decodeOctets_encodeChar (c : Char) (rest : List UInt8) :
    decodeOctets (Text.encodeChars (encodeChar c) ++ rest)
      = Text.encodeChar c ++ decodeOctets rest := by
  rw [encodeChar]
  split
  · next hc =>
    obtain ⟨hascii, hpercent⟩ := isUnreserved_spec hc
    have hoctets : Text.encodeChars [c] = [UInt8.ofNat c.val.toNat] :=
      (List.append_nil _).trans (Text.encodeChar_of_ascii hascii)
    have hne : UInt8.ofNat c.val.toNat ≠ 0x25 := by
      intro heq
      apply hpercent
      refine Text.eq_of_mem_encodeChar (a := '%') (by decide) ?_
      rw [Text.encodeChar_of_ascii hascii, heq]
      exact List.mem_singleton.mpr rfl
    rw [hoctets, Text.encodeChar_of_ascii hascii]
    exact decodeOctets_of_ne hne rest
  · exact decodeOctets_encode_triples _ rest

theorem decodeOctets_encode (path : List Char) :
    decodeOctets (Text.encodeChars (path.flatMap encodeChar)) = Text.encodeChars path := by
  induction path with
  | nil => rfl
  | cons c path ih =>
    rw [List.flatMap_cons, Text.encodeChars_append, decodeOctets_encodeChar, ih]
    rfl

/-- **The path of an identifier** that a path was made into is that path. -/
theorem toPath_ofPath (path : String) : toPath (ofPath path) = path := by
  have hsplit : ofPath path
      = String.ofList scheme ++ String.ofList (path.toList.flatMap encodeChar) := by
    rw [ofPath, String.ofList_append]
  rw [hsplit, toPath_scheme, percentDecode, Text.encode_eq_encodeChars, String.toList_ofList,
    decodeOctets_encode, Text.decodeLossy_encodeChars, String.ofList_toList]

/-- An absolute path is no identifier, and is taken as it is. -/
theorem toPath_of_isAbsolute {path : String} (h : Path.isAbsolute path = true) :
    toPath path = path := by
  have hlead : ¬ scheme <+: path.toList := by
    rintro ⟨rest, hrest⟩
    rw [Path.isAbsolute, ← hrest] at h
    cases h
  rw [toPath, Rpc.dropLead?_eq_none hlead]

/-- **Absolute paths survive.** An absolute path, whatever characters it has, is the path of its own
identifier, and of the identifier that is made of it as input. Behind the scheme an identifier is
written in unreserved characters and triples with capital digits only, and no other path
has the same one. -/
theorem paths_survive (path : String) (h : Path.isAbsolute path = true) :
    toPath (ofPath path) = path
      ∧ toPath (ofInput path) = path
      ∧ (∃ rest, ofPath path = String.ofList (scheme ++ rest) ∧ Spelled rest)
      ∧ ∀ other, ofPath other = ofPath path → other = path := by
  refine ⟨toPath_ofPath path, ?_, ⟨_, rfl, spelled_encode path.toList⟩, ?_⟩
  · rw [ofInput]
    split
    · exact toPath_of_isAbsolute h
    · exact toPath_ofPath path
  · intro other heq
    rw [← toPath_ofPath other, heq, toPath_ofPath]

/-- Blanks, signs that look like a triple, and longer characters are written in triples; a path with
what separates a scheme in it is taken as it is. -/
theorem paths_survive_triples :
    ofPath "/a b/%41/é#" = "file:///a%20b/%2541/%C3%A9%23"
      ∧ toPath (ofPath "/a b/%41/é#") = "/a b/%41/é#"
      ∧ toPath (ofInput "/a://%41") = "/a://%41" := by
  have hplain := paths_survive "/a b/%41/é#" (by decide)
  have hscheme := paths_survive "/a://%41" (by decide)
  exact ⟨by decide +kernel, hplain.1, hscheme.2.1⟩

end SymbolQuery.Uri
