/-
References cut at octets.

A text may be cut at an octet only where a character begins or the text ends, and
anywhere else the cut fails. The reading of a reference is written here with such cuts:
it looks at the first octets for a drive, goes over the octets at which characters begin,
and cuts at those it finds. No cut of it fails, whatever the text, and it finds what is
found character by character.
-/
import SymbolQuery.Proofs.References

set_option autoImplicit false

namespace SymbolQuery

namespace Text

/-! ## Cuts -/

/-- Cuts a text at an octet; nothing if the octet is inside a character or behind the end. -/
def cutOctets? : Nat → List Char → Option (List Char × List Char)
  | 0, s => some ([], s)
  | _ + 1, [] => none
  | n + 1, c :: s =>
    if c.utf8Size ≤ n + 1 then
      (cutOctets? (n + 1 - c.utf8Size) s).map fun (before, rest) => (c :: before, rest)
    else none

theorem length_encodeChars_cons (c : Char) (s : List Char) :
    (encodeChars (c :: s)).length = c.utf8Size + (encodeChars s).length := by
  rw [encodeChars, List.flatMap_cons, List.length_append]
  exact congrArg (· + _) (String.length_utf8EncodeChar c)

/-- **A text can be cut at the octets of its beginnings**, and nowhere else. -/
theorem cutOctets?_eq_some {n : Nat} {s before rest : List Char} :
    cutOctets? n s = some (before, rest)
      ↔ s = before ++ rest ∧ (encodeChars before).length = n := by
  have hpos : ∀ (c : Char) (s : List Char), (encodeChars (c :: s)).length ≠ 0 := by
    intro c s hzero
    have hc := c.utf8Size_pos
    rw [length_encodeChars_cons] at hzero
    omega
  fun_induction cutOctets? n s generalizing before with
  | case1 s =>
    constructor
    · rintro ⟨⟩
      exact ⟨rfl, rfl⟩
    · rintro ⟨hs, hzero⟩
      cases before with
      | nil => rw [hs]; rfl
      | cons c before => exact absurd hzero (hpos c before)
  | case2 n =>
    refine ⟨fun h => (by cases h), ?_⟩
    rintro ⟨hs, hlength⟩
    rw [(List.append_eq_nil_iff.mp hs.symm).1] at hlength
    cases hlength
  | case3 n c s hle ih =>
    rw [Option.map_eq_some_iff]
    constructor
    · rintro ⟨⟨b, r⟩, hcut, ⟨⟩⟩
      obtain ⟨rfl, hlength⟩ := ih.mp hcut
      refine ⟨rfl, ?_⟩
      rw [length_encodeChars_cons, hlength]
      omega
    · rintro ⟨hs, hlength⟩
      cases before with
      | nil => cases hlength
      | cons d before =>
        obtain ⟨rfl, rfl⟩ := List.cons.inj hs
        rw [length_encodeChars_cons] at hlength
        exact ⟨(before, rest), ih.mpr ⟨rfl, by omega⟩, rfl⟩
  | case4 n c s hgt =>
    refine ⟨fun h => (by cases h), ?_⟩
    rintro ⟨hs, hlength⟩
    cases before with
    | nil => cases hlength
    | cons d before =>
      obtain ⟨rfl, -⟩ := List.cons.inj hs
      rw [length_encodeChars_cons] at hlength
      omega

/-- A character begins with an octet beyond ASCII, or is its only octet. -/
theorem encodeChar_cases (c : Char) :
    c.val.toNat ≤ 0x7F ∧ encodeChar c = [UInt8.ofNat c.val.toNat]
      ∨ ∃ b more, encodeChar c = b :: more ∧ 128 ≤ b.toNat := by
  by_cases hc : c.val.toNat ≤ 0x7F
  · exact .inl ⟨hc, if_pos hc⟩
  · cases hoctets : encodeChar c with
    | nil => exact absurd hoctets String.utf8EncodeChar_ne_nil
    | cons b more =>
      exact .inr ⟨b, more, rfl, le_toNat_of_mem_encodeChar (by omega) b
        (hoctets ▸ List.mem_cons_self)⟩

/-- The characters with the octets at which they begin. -/
def charIndices : Nat → List Char → List (Nat × Char)
  | _, [] => []
  | i, c :: s => (i, c) :: charIndices (i + c.utf8Size) s

end Text

namespace Reference.Octets

/-! ## Reading with cuts -/

/-- Cuts at the first colon with a digit behind it, of those that are listed. -/
def scan (s : List Char) (start : Nat) :
    List (Nat × Char) → Option (Except Fault (Option (List Char × List Char)))
  | [] => some (.ok none)
  | (i, c) :: rest =>
    if c ≠ ':' then scan s start rest
    else do
      let (_, behind) ← Text.cutOctets? (start + i + 1) s
      match behind.head? with
      | none => scan s start rest
      | some d =>
        if isDigit d then do
          let (file, _) ← Text.cutOctets? (start + i) s
          return .ok (some (file, behind))
        else if d = '-' then return .error .negative
        else scan s start rest

/-- The octet of an ASCII letter. -/
def isLetterOctet (b : UInt8) : Bool := (0x61 ≤ b && b ≤ 0x7A) || (0x41 ≤ b && b ≤ 0x5A)

/-- Where the search begins: behind the letter of a drive and its colon. -/
def searchStart (octets : List UInt8) : Nat :=
  if 2 < octets.length ∧ octets[1]? = some 0x3A
      ∧ octets.head?.any isLetterOctet
  then 2 else 0

/-- Cuts a text into file and position. -/
def splitPosition (s : List Char) : Option (Except Fault (Option (List Char × List Char))) := do
  let start := searchStart (Text.encodeChars s)
  let (_, searched) ← Text.cutOctets? start s
  scan s start (Text.charIndices 0 searched)

/-- Reads what stands before the hash sign, with the name behind it. -/
def parseLocation (location : List Char) (name : Option String) :
    Option (Except Fault Reference) := do
  match ← splitPosition location with
  | .error e => return .error e
  | .ok (some (file, rest)) =>
    match readPosition rest with
    | .error e => return .error e
    | .ok p => return .ok ⟨String.ofList file, some p, name⟩
  | .ok none =>
    match name with
    | some n => return .ok ⟨String.ofList location, none, some n⟩
    | none => return .error .noTarget

/-- Reads a reference. -/
def parse (input : String) : Option (Except Fault Reference) :=
  match Text.trimChars input.toList with
  | [] => return .error .empty
  | trimmed =>
    match splitName trimmed with
    | (location, none) => parseLocation location none
    | (location, some name) =>
      match Text.trimChars name with
      | [] => return .error .emptyName
      | n => parseLocation location (some (String.ofList n))

/-! ## No cut fails -/

theorem map_lead_append (lead lead' : List Char)
    (cut : Except Fault (Option (List Char × List Char))) :
    cut.map (Option.map fun (file, p) => ((lead ++ lead') ++ file, p))
      = (cut.map (Option.map fun (file, p) => (lead' ++ file, p))).map
          (Option.map fun (file, p) => (lead ++ file, p)) := by
  rcases cut with _ | (_ | ⟨file, p⟩) <;> simp [Except.map]

/-- The search goes on as the cut character by character does. -/
theorem scan_charIndices {s before rest : List Char} {start i : Nat} (hs : s = before ++ rest)
    (hi : start + i = (Text.encodeChars before).length) :
    scan s start (Text.charIndices i rest) = some ((splitAtColon rest).map
      (Option.map fun (file, p) => (before ++ file, p))) := by
  induction rest generalizing before i with
  | nil => rfl
  | cons c rest ih =>
    have hnext : start + (i + c.utf8Size) = (Text.encodeChars (before ++ [c])).length := by
      rw [Text.encodeChars_append, List.length_append, Text.length_encodeChars_cons, ← hi]
      exact (Nat.add_assoc _ _ _).symm
    have hs' : s = (before ++ [c]) ++ rest := by rw [hs, List.append_assoc]; rfl
    have hpassed (h : c = ':' → ∀ d ∈ rest.head?, ¬ Begins d) :
        scan s start (Text.charIndices (i + c.utf8Size) rest)
          = some ((splitAtColon (c :: rest)).map
              (Option.map fun (file, p) => (before ++ file, p))) := by
      rw [ih hs' hnext, splitAtColon_cons h, map_lead_append]
    rw [Text.charIndices, scan]
    by_cases hc : c = ':'
    · subst hc
      have hbehind : Text.cutOctets? (start + i + 1) s = some (before ++ [':'], rest) :=
        Text.cutOctets?_eq_some.mpr ⟨hs', hnext.symm⟩
      rw [if_neg fun hne => hne rfl, hbehind]
      cases rest with
      | nil => exact hpassed fun _ d hd => by cases hd
      | cons d rest =>
        by_cases hd : Begins d
        · rw [splitAtColon_of_begins hd]
          have hfile : Text.cutOctets? (start + i) s = some (before, ':' :: d :: rest) :=
            Text.cutOctets?_eq_some.mpr ⟨hs, hi.symm⟩
          by_cases hdigit : isDigit d = true
          · simp [hdigit, hfile, Except.map]
          · obtain rfl := hd.resolve_left hdigit
            rfl
        · have hdigit : ¬ isDigit d = true := fun h => hd (.inl h)
          have hminus : d ≠ '-' := fun h => hd (.inr h)
          refine Eq.trans ?_ (hpassed ?_)
          · simp [hdigit, hminus]
          · rintro _ _ ⟨⟩
            exact hd
    · rw [if_pos hc]
      exact hpassed fun h => absurd h hc

theorem isLetterOctet_ofNat {c : Char} (h : c.val.toNat ≤ 0x7F) :
    isLetterOctet (UInt8.ofNat c.val.toNat) = isLetter c := by
  unfold isLetterOctet isLetter
  simp only [UInt8.le_iff_toNat_le, Text.toNat_ofNat_of_lt (show c.val.toNat < 256 by omega),
    Char.le_def, UInt32.le_iff_toNat_le]
  rfl

theorem toNat_of_isLetterOctet {b : UInt8} (h : isLetterOctet b = true) : b.toNat < 128 := by
  unfold isLetterOctet at h
  simp only [Bool.or_eq_true, Bool.and_eq_true, decide_eq_true_eq, UInt8.le_iff_toNat_le] at h
  have hz : (0x7A : UInt8).toNat = 0x7A := rfl
  have hZ : (0x5A : UInt8).toNat = 0x5A := rfl
  omega

theorem toNat_of_isLetter {c : Char} (h : isLetter c = true) : c.val.toNat ≤ 0x7F := by
  unfold isLetter at h
  simp only [Bool.or_eq_true, Bool.and_eq_true, decide_eq_true_eq, Char.le_def,
    UInt32.le_iff_toNat_le] at h
  have hz : 'z'.val.toNat = 0x7A := rfl
  have hZ : 'Z'.val.toNat = 0x5A := rfl
  omega

/-- The drive is told by its octets. -/
theorem searchStart_encodeChars (s : List Char) :
    searchStart (Text.encodeChars s) = (Text.encodeChars (cutDrive s).1).length := by
  obtain ⟨x, d, rest, rfl, hletter, hcut⟩ | ⟨hplain, hcut⟩ := cutDrive_cases s
  · have hx := toNat_of_isLetter hletter
    have hoctets : Text.encodeChars (x :: ':' :: d :: rest)
        = UInt8.ofNat x.val.toNat :: 0x3A :: Text.encodeChars (d :: rest) := by
      rw [Text.encodeChars, List.flatMap_cons, Text.encodeChar, String.utf8EncodeChar, if_pos hx]
      rfl
    have hpos := Text.length_le_length_encodeChars (d :: rest)
    have hlong : 2 < (Text.encodeChars (x :: ':' :: d :: rest)).length := by
      rw [hoctets]
      simp only [List.length_cons] at hpos ⊢
      omega
    have hlead : isLetterOctet (UInt8.ofNat x.val.toNat) = true :=
      (isLetterOctet_ofNat hx).trans hletter
    rw [hcut, searchStart, if_pos ⟨hlong, by rw [hoctets]; rfl, by rw [hoctets]; exact hlead⟩,
      Text.length_encodeChars_cons, Text.length_encodeChars_cons,
      Char.utf8Size_eq_one_iff.mpr (UInt32.le_iff_toNat_le.mpr hx)]
    rfl
  · rw [hcut, searchStart, if_neg]
    · rfl
    · rintro ⟨hlength, hcolon, hletter⟩
      rcases s with _ | ⟨c, s⟩
      · cases hcolon
      rw [Text.encodeChars, List.flatMap_cons] at hlength hcolon hletter
      obtain ⟨hc, hoctets⟩ | ⟨b, more, hoctets, hb⟩ := Text.encodeChar_cases c
      · rw [hoctets] at hlength hcolon hletter
        have hdrive : isLetter c = true := (isLetterOctet_ofNat hc).symm.trans hletter
        rcases s with _ | ⟨e, s⟩
        · cases hcolon
        rw [List.flatMap_cons] at hlength hcolon
        obtain ⟨he, hoctets⟩ | ⟨b, more, hoctets, hb⟩ := Text.encodeChar_cases e
        · rw [hoctets] at hlength hcolon
          have hoctet : UInt8.ofNat e.val.toNat = 0x3A := Option.some.inj hcolon
          have hvalue : e.val.toNat = 0x3A := by
            rw [← Text.toNat_ofNat_of_lt (show e.val.toNat < 256 by omega), hoctet]
            rfl
          obtain rfl : e = ':' := Char.toNat_inj.mp hvalue
          rcases s with _ | ⟨d, rest⟩
          · exact absurd hlength (Nat.lt_irrefl 2)
          · rw [hplain c d rest rfl] at hdrive
            cases hdrive
        · rw [hoctets] at hcolon
          cases hcolon
          exact absurd hb (by decide)
      · rw [hoctets] at hletter
        have hlow := toNat_of_isLetterOctet (hletter : isLetterOctet b = true)
        omega

theorem splitPosition_eq (s : List Char) :
    splitPosition s = some (Reference.splitPosition s) := by
  have hcut : Text.cutOctets? (searchStart (Text.encodeChars s)) s = some (cutDrive s) :=
    Text.cutOctets?_eq_some.mpr ⟨(cutDrive_append s).symm, (searchStart_encodeChars s).symm⟩
  rw [splitPosition, hcut, Reference.splitPosition_eq]
  exact scan_charIndices (cutDrive_append s).symm (searchStart_encodeChars s)

theorem parseLocation_eq (location : List Char) (name : Option String) :
    parseLocation location name = some (Reference.parseLocation location name) := by
  unfold parseLocation Reference.parseLocation
  rw [splitPosition_eq]
  rcases Reference.splitPosition location with _ | (_ | ⟨file, rest⟩)
  · rfl
  · cases name <;> rfl
  · simp only [Option.bind_eq_bind, Option.bind]
    cases readPosition rest <;> rfl

/-- **Every text is read without a cut that fails.** -/
theorem parse_eq (input : String) : parse input = some (Reference.parse input) := by
  unfold parse Reference.parse parseChars
  cases Text.trimChars input.toList with
  | nil => rfl
  | cons c trimmed =>
    dsimp only
    rcases splitName (c :: trimmed) with ⟨location, _ | name⟩
    · exact parseLocation_eq location none
    · dsimp only
      cases Text.trimChars name with
      | nil => rfl
      | cons d n => exact parseLocation_eq location _

end Reference.Octets

namespace Reference

/-! ## Round trips -/

/-- **References read back.** What is read from a text is read again from its own text; the
references of which this holds are the printable ones; and no text makes a cut of the reading
fail. -/
theorem reads_back :
    (∀ (input : String) (r : Reference), parse input = .ok r → parse r.text = .ok r)
    ∧ (∀ r : Reference, Printable r ↔ parse r.text = .ok r)
    ∧ ∀ input : String, Octets.parse input = some (parse input) :=
  ⟨fun _ _ h => parse_text_of_printable (printable_of_parse h), fun _ => printable_iff,
    Octets.parse_eq⟩

/-- A drive that is followed by a digit, a hash sign and a colon in the file, and a name with
colons: read from a text with blanks, a sign and leading zeros, and read again from what is
written. -/
theorem reads_back_drive :
    let input := " C:5 é#x:y:04294967295:+0#\u2003operator::new "
    let r : Reference := ⟨"C:5 é#x:y", some ⟨4294967295, 0⟩, some "operator::new"⟩
    parse input = .ok r ∧ r.text = "C:5 é#x:y:4294967295:0#operator::new"
      ∧ parse r.text = .ok r ∧ Printable r := by
  intro input r
  have hread : parse input = .ok r := by decide +kernel
  have hagain : parse r.text = .ok r := reads_back.1 input r hread
  exact ⟨hread, by decide +kernel, hagain, (reads_back.2.1 r).mpr hagain⟩

end Reference

end SymbolQuery
