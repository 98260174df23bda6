/-
What percent decoding loses.

Behind a percent sign the decoder takes two octets before it looks at them. If they are two
digits, the three octets are a triple and become one. If not, the sign is kept and the two
octets are gone: they can be text, the beginning of a character, or the percent sign of a
triple. `decodeKeeping` replaces the same triples and keeps everything else. Both agree
exactly where the scan stops at no broken escape (`decodeOctets_eq_keeping_iff`), but for
two patterns: of `%%35` the decoder drops `%3` and keeps the `5`, which is what the triple
stands for, and likewise with one more `3` in between.
-/
import Mathlib.Data.List.Infix
import SymbolQuery.Proofs.HeaderLines
import SymbolQuery.Uri

set_option autoImplicit false

namespace SymbolQuery.Uri

/-! ## Hexadecimal digits -/

theorem hexOctet?_eq_some {b v : UInt8} (h : hexOctet? b = some v) :
    (0x30 ≤ b.toNat ∧ b.toNat ≤ 0x39 ∧ v.toNat + 0x30 = b.toNat)
      ∨ (0x41 ≤ b.toNat ∧ b.toNat ≤ 0x46 ∧ v.toNat + 0x37 = b.toNat)
      ∨ (0x61 ≤ b.toNat ∧ b.toNat ≤ 0x66 ∧ v.toNat + 0x57 = b.toNat) := by
  unfold hexOctet? at h
  simp only [UInt8.le_iff_toNat_le, UInt8.reduceToNat] at h
  split at h
  · obtain rfl := Option.some.inj h
    simp only [UInt8.toNat_sub, UInt8.reduceToNat]
    omega
  split at h
  · obtain rfl := Option.some.inj h
    simp only [UInt8.toNat_sub, UInt8.toNat_add, UInt8.reduceToNat]
    omega
  split at h
  · obtain rfl := Option.some.inj h
    simp only [UInt8.toNat_sub, UInt8.toNat_add, UInt8.reduceToNat]
    omega
  · cases h

/-- A percent sign is no digit. -/
theorem ne_percent_of_hexOctet? {b v : UInt8} (h : hexOctet? b = some v) : b ≠ 0x25 := by
  rintro rfl
  cases h

theorem hexOctet?_of_decimal {d : UInt8} (hd : 0x30 ≤ d ∧ d ≤ 0x39) :
    hexOctet? d = some (d - 0x30) := if_pos hd

/-- The octet that two digits stand for, behind a percent sign. -/
def escaped? (b high low : UInt8) : Option UInt8 :=
  if b = 0x25 then
    (hexOctet? high).bind fun h => (hexOctet? low).map fun l => h * 16 + l
  else none

theorem escaped?_percent {high low x y : UInt8} (hx : hexOctet? high = some x)
    (hy : hexOctet? low = some y) : escaped? 0x25 high low = some (x * 16 + y) := by
  rw [escaped?, if_pos rfl, hx, hy]
  rfl

theorem escaped?_eq_none {high low : UInt8}
    (h : ∀ x y, hexOctet? high = some x → hexOctet? low = some y → False) :
    escaped? 0x25 high low = none := by
  rw [escaped?, if_pos rfl]
  cases hx : hexOctet? high with
  | none => rfl
  | some x =>
    cases hy : hexOctet? low with
    | none => rfl
    | some y => exact absurd hy (h x y hx)

theorem escaped?_eq_some {b high low v : UInt8} (h : escaped? b high low = some v) :
    b = 0x25 ∧ ∃ x y, hexOctet? high = some x ∧ hexOctet? low = some y ∧ v = x * 16 + y := by
  unfold escaped? at h
  split at h
  · next hb =>
    obtain ⟨x, hx, hrest⟩ := Option.bind_eq_some_iff.mp h
    obtain ⟨y, hy, rfl⟩ := Option.map_eq_some_iff.mp hrest
    exact ⟨hb, x, y, hx, hy, rfl⟩
  · cases h

/-- **Only a decimal digit is its own triple's second digit**, behind a three. -/
theorem decimal_of_escaped?_eq_low {b high low : UInt8} (h : escaped? b high low = some low) :
    high = 0x33 ∧ 0x30 ≤ low ∧ low ≤ 0x39 := by
  obtain ⟨-, x, y, hx, hy, hlow⟩ := escaped?_eq_some h
  have hvalue : low.toNat = (x.toNat * 16 + y.toNat) % 256 := by
    rw [hlow, UInt8.toNat_add, UInt8.toNat_mul]
    simp only [UInt8.reduceToNat]
    omega
  simp only [← UInt8.toNat_inj, UInt8.le_iff_toNat_le, UInt8.reduceToNat]
  have hdigit := hexOctet?_eq_some hx
  -- both sides of the sum are less than 16 and 256, so the digit of value three is the only one
  rcases hexOctet?_eq_some hy with hy | hy | hy <;> omega

theorem escaped?_of_decimal {d : UInt8} (hd : 0x30 ≤ d ∧ d ≤ 0x39) :
    escaped? 0x25 0x33 d = some d := by
  rw [escaped?, if_pos rfl, hexOctet?_of_decimal hd]
  change some (3 * 16 + (d - 0x30)) = some d
  refine congrArg some ?_
  simp only [← UInt8.toNat_inj, UInt8.le_iff_toNat_le, UInt8.toNat_add, UInt8.toNat_mul,
    UInt8.toNat_sub, UInt8.reduceToNat] at hd ⊢
  omega

/-! ## Decoding that keeps everything else -/

/-- Undoes percent coding where there are triples, and keeps every other octet. -/
def decodeKeeping : List UInt8 → List UInt8
  | b :: high :: low :: more =>
    match escaped? b high low with
    | some v => v :: decodeKeeping more
    | none => b :: decodeKeeping (high :: low :: more)
  | b :: rest => b :: decodeKeeping rest
  | [] => []

/-- Undoes percent coding in a text and keeps everything else; octets that are no text become
replacement characters. -/
def percentDecodeKeeping (s : String) : String :=
  String.ofList (Text.decodeLossy (decodeKeeping (Text.encode s)))

/-- The octet of the triple that octets begin with, if they begin with one. -/
def frontTriple? : List UInt8 → Option UInt8
  | b :: high :: low :: _ => escaped? b high low
  | _ => none

theorem decodeKeeping_triple {b high low v : UInt8} (h : escaped? b high low = some v)
    (more : List UInt8) :
    decodeKeeping (b :: high :: low :: more) = v :: decodeKeeping more := by
  rw [decodeKeeping, h]

/-- What begins no triple is kept. -/
theorem decodeKeeping_cons {b : UInt8} {rest : List UInt8} (h : frontTriple? (b :: rest) = none) :
    decodeKeeping (b :: rest) = b :: decodeKeeping rest := by
  match rest with
  | [] => rfl
  | [_] => rfl
  | high :: low :: more =>
    have hbroken : escaped? b high low = none := h
    rw [decodeKeeping, hbroken]

/-- Of a broken escape all is kept, and read on behind the sign. -/
theorem decodeKeeping_broken {high low : UInt8} (h : escaped? 0x25 high low = none)
    (more : List UInt8) :
    decodeKeeping (0x25 :: high :: low :: more) = 0x25 :: decodeKeeping (high :: low :: more) := by
  rw [decodeKeeping, h]

theorem frontTriple?_of_ne {b : UInt8} (hb : b ≠ 0x25) (rest : List UInt8) :
    frontTriple? (b :: rest) = none := by
  match rest with
  | [] => rfl
  | [_] => rfl
  | high :: low :: more => exact if_neg hb

theorem exists_of_frontTriple? {octets : List UInt8} {v : UInt8}
    (h : frontTriple? octets = some v) :
    ∃ b high low more, octets = b :: high :: low :: more ∧ escaped? b high low = some v := by
  match octets with
  | [] | [_] | [_, _] => cases h
  | b :: high :: low :: more => exact ⟨b, high, low, more, rfl, h⟩

/-! ## The decoder -/

/-- Where no two octets are left, there is one or none. -/
theorem short_of_ne {rest : List UInt8}
    (h : ∀ high low more, rest = high :: low :: more → False) : rest = [] ∨ ∃ x, rest = [x] := by
  match rest with
  | [] => exact .inl rfl
  | [x] => exact .inr ⟨x, rfl⟩
  | high :: low :: more => exact absurd rfl (h high low more)

theorem decodeOctets_of_ne {b : UInt8} (hb : b ≠ 0x25) (rest : List UInt8) :
    decodeOctets (b :: rest) = b :: decodeOctets rest := by
  match rest with
  | [] => exact if_neg hb
  | [_] => exact if_neg hb
  | _ :: _ :: _ => rw [decodeOctets, if_neg hb]

theorem decodeOctets_triple {b high low v : UInt8} (h : escaped? b high low = some v)
    (more : List UInt8) :
    decodeOctets (b :: high :: low :: more) = v :: decodeOctets more := by
  obtain ⟨rfl, x, y, hx, hy, rfl⟩ := escaped?_eq_some h
  rw [decodeOctets, if_pos rfl, hx, hy]

/-- **Of a broken escape the sign is kept** and the two octets behind it are dropped. -/
theorem decodeOctets_broken {high low : UInt8} (h : escaped? 0x25 high low = none)
    (more : List UInt8) :
    decodeOctets (0x25 :: high :: low :: more) = 0x25 :: decodeOctets more := by
  rw [escaped?, if_pos rfl] at h
  rw [decodeOctets, if_pos rfl]
  cases hx : hexOctet? high with
  | none => rfl
  | some x =>
    cases hy : hexOctet? low with
    | none => rfl
    | some y =>
      rw [hx, hy] at h
      cases h

/-- A digit is kept where it begins what is decoded. -/
theorem decodeOctets_digit {b v : UInt8} (h : hexOctet? b = some v) (rest : List UInt8) :
    decodeOctets (b :: rest) = b :: decodeOctets rest :=
  decodeOctets_of_ne (ne_percent_of_hexOctet? h) rest

theorem decodeKeeping_digit {b v : UInt8} (h : hexOctet? b = some v) (rest : List UInt8) :
    decodeKeeping (b :: rest) = b :: decodeKeeping rest :=
  decodeKeeping_cons (frontTriple?_of_ne (ne_percent_of_hexOctet? h) rest)

/-! ## What is kept behind a broken escape -/

/-- What is kept of two octets and of what follows them: a triple may begin with either of the two,
and then takes octets behind them along. -/
inductive Kept (x y : UInt8) : List UInt8 → List UInt8 → Prop
  | first {low v : UInt8} {more : List UInt8} (h : escaped? x y low = some v) :
    Kept x y (low :: more) (v :: decodeKeeping more)
  | second {high low v : UInt8} {more : List UInt8} (h : escaped? y high low = some v) :
    Kept x y (high :: low :: more) (x :: v :: decodeKeeping more)
  | neither {more : List UInt8} : Kept x y more (x :: y :: decodeKeeping more)

theorem kept (x y : UInt8) (more : List UInt8) :
    Kept x y more (decodeKeeping (x :: y :: more)) := by
  cases hfirst : frontTriple? (x :: y :: more) with
  | some v =>
    obtain ⟨_, _, low, rest, heq, hv⟩ := exists_of_frontTriple? hfirst
    cases heq
    rw [decodeKeeping_triple hv]
    exact .first hv
  | none =>
    rw [decodeKeeping_cons hfirst]
    cases hsecond : frontTriple? (y :: more) with
    | some v =>
      obtain ⟨_, high, low, rest, heq, hv⟩ := exists_of_frontTriple? hsecond
      cases heq
      rw [decodeKeeping_triple hv]
      exact .second hv
    | none =>
      rw [decodeKeeping_cons hsecond]
      exact .neither

/-- Two octets in front never make the result shorter, since the digits of a triple that takes some
of the others along would be kept without it. -/
theorem length_decodeKeeping_le (x y : UInt8) (more : List UInt8) :
    (decodeKeeping more).length ≤ (decodeKeeping (x :: y :: more)).length := by
  have hkept := kept x y more
  generalize decodeKeeping (x :: y :: more) = out at hkept
  cases hkept with
  | first h =>
    obtain ⟨-, _, _, -, hlow, -⟩ := escaped?_eq_some h
    rw [decodeKeeping_digit hlow]
    exact Nat.le_refl _
  | second h =>
    obtain ⟨-, _, _, hhigh, hlow, -⟩ := escaped?_eq_some h
    rw [decodeKeeping_digit hhigh, decodeKeeping_digit hlow]
    exact Nat.le_refl _
  | neither => exact Nat.le_add_right _ 2

/-- **The decoder never gives more** than what is kept. -/
theorem length_decodeOctets_le (octets : List UInt8) :
    (decodeOctets octets).length ≤ (decodeKeeping octets).length := by
  fun_induction decodeOctets octets with
  | case1 => exact Nat.le_refl 0
  | case2 high low more h l hlow hhigh ih =>
    rw [decodeKeeping_triple (escaped?_percent hhigh hlow)]
    exact Nat.succ_le_succ ih
  | case3 high low more hbroken ih =>
    rw [decodeKeeping_broken (escaped?_eq_none hbroken)]
    exact Nat.succ_le_succ (ih.trans (length_decodeKeeping_le high low more))
  | case4 rest hshort =>
    obtain rfl | ⟨x, rfl⟩ := short_of_ne hshort
    · exact Nat.le_refl 1
    · exact Nat.le_add_right 1 1
  | case5 b rest hb ih =>
    rw [decodeKeeping_cons (frontTriple?_of_ne hb rest)]
    exact Nat.succ_le_succ ih

/-! ## What is lost -/

/-- Octets of which decoding loses nothing: every percent sign that the scan stops at begins a
triple or is the last octet, or it stands before a triple whose octet is its own second digit, which
is what remains of it when the octets before are dropped. -/
inductive Lossless : List UInt8 → Prop
  | nil : Lossless []
  | plain {b : UInt8} {rest : List UInt8} (hb : b ≠ 0x25) (h : Lossless rest) :
    Lossless (b :: rest)
  | triple {high low v : UInt8} {more : List UInt8} (hv : escaped? 0x25 high low = some v)
      (h : Lossless more) : Lossless (0x25 :: high :: low :: more)
  | last : Lossless [0x25]
  | ownDigit {d : UInt8} {more : List UInt8} (hd : 0x30 ≤ d ∧ d ≤ 0x39) (h : Lossless more) :
    Lossless (0x25 :: 0x25 :: 0x33 :: d :: more)
  | ownDigits {d : UInt8} {more : List UInt8} (hd : 0x30 ≤ d ∧ d ≤ 0x39) (h : Lossless more) :
    Lossless (0x25 :: 0x33 :: 0x25 :: 0x33 :: d :: more)

theorem Lossless.of_cons {b : UInt8} {rest : List UInt8} (hb : b ≠ 0x25)
    (h : Lossless (b :: rest)) : Lossless rest := by
  cases h with
  | plain _ h => exact h
  | triple | last | ownDigit | ownDigits => exact absurd rfl hb

theorem ne_percent_of_decimal {d : UInt8} (hd : 0x30 ≤ d ∧ d ≤ 0x39) : d ≠ 0x25 :=
  ne_percent_of_hexOctet? (hexOctet?_of_decimal hd)

theorem decodeOctets_of_lossless {octets : List UInt8} (h : Lossless octets) :
    decodeOctets octets = decodeKeeping octets := by
  induction h with
  | nil => rfl
  | plain hb _ ih =>
    rw [decodeOctets_of_ne hb, decodeKeeping_cons (frontTriple?_of_ne hb _), ih]
  | triple hv _ ih => rw [decodeOctets_triple hv, decodeKeeping_triple hv, ih]
  | last => rfl
  | ownDigit hd _ ih =>
    have hd' := ne_percent_of_decimal hd
    rw [decodeOctets_broken rfl, decodeOctets_of_ne hd', decodeKeeping_broken rfl,
      decodeKeeping_triple (escaped?_of_decimal hd), ih]
  | ownDigits hd _ ih =>
    have hd' := ne_percent_of_decimal hd
    rw [decodeOctets_broken rfl, decodeOctets_of_ne (by decide), decodeOctets_of_ne hd',
      decodeKeeping_broken rfl, decodeKeeping_cons (frontTriple?_of_ne (by decide) _),
      decodeKeeping_triple (escaped?_of_decimal hd), ih]

/-- Behind a broken escape the decoder can only be right where the octets that are dropped take a
triple apart. -/
theorem lossless_of_broken {high low : UInt8} {more : List UInt8}
    (hbehind : decodeOctets more = decodeKeeping (high :: low :: more))
    (hmore : decodeOctets more = decodeKeeping more → Lossless more) :
    Lossless (0x25 :: high :: low :: more) := by
  have hkept := kept high low more
  rw [← hbehind] at hkept
  have hlength := length_decodeOctets_le more
  generalize hout : decodeOctets more = out at hkept hlength
  cases hkept with
  | first hv =>
    -- of the triple `high low last` only the last digit is left, and has to be its octet
    obtain ⟨rfl, _, _, _, hlast, -⟩ := escaped?_eq_some hv
    rw [decodeOctets_digit hlast] at hout
    obtain ⟨rfl, hrest⟩ := List.cons.inj hout
    obtain ⟨rfl, hd⟩ := decimal_of_escaped?_eq_low hv
    have h := hmore (by rw [decodeOctets_digit hlast, decodeKeeping_digit hlast, hrest])
    exact .ownDigit hd (h.of_cons (ne_percent_of_decimal hd))
  | second hv =>
    -- both digits of the triple are left: the first one for `high`, the last one for the octet
    obtain ⟨rfl, _, _, hfirst, hlast, -⟩ := escaped?_eq_some hv
    rw [decodeOctets_digit hfirst, decodeOctets_digit hlast] at hout
    obtain ⟨rfl, hbehindFirst⟩ := List.cons.inj hout
    obtain ⟨rfl, hrest⟩ := List.cons.inj hbehindFirst
    obtain ⟨rfl, hd⟩ := decimal_of_escaped?_eq_low hv
    have h := hmore (by rw [decodeOctets_digit hfirst, decodeOctets_digit hlast,
      decodeKeeping_digit hfirst, decodeKeeping_digit hlast, hrest])
    exact .ownDigits hd ((h.of_cons (by decide)).of_cons (ne_percent_of_decimal hd))
  | neither =>
    -- without a triple there, two octets are missing
    rw [List.length_cons, List.length_cons] at hlength
    omega

theorem lossless_of_decodeOctets {octets : List UInt8}
    (h : decodeOctets octets = decodeKeeping octets) : Lossless octets := by
  fun_induction decodeOctets octets with
  | case1 => exact .nil
  | case2 high low more x y hlow hhigh ih =>
    have hv := escaped?_percent hhigh hlow
    rw [decodeKeeping_triple hv] at h
    exact .triple hv (ih (List.cons.inj h).2)
  | case3 high low more hbroken ih =>
    rw [decodeKeeping_broken (escaped?_eq_none hbroken)] at h
    exact lossless_of_broken (List.cons.inj h).2 ih
  | case4 rest hshort =>
    obtain rfl | ⟨x, rfl⟩ := short_of_ne hshort
    · exact .last
    · cases h
  | case5 b rest hb ih =>
    rw [decodeKeeping_cons (frontTriple?_of_ne hb rest)] at h
    exact .plain hb (ih (List.cons.inj h).2)

/-- **When decoding loses nothing.** -/
theorem decodeOctets_eq_keeping_iff {octets : List UInt8} :
    decodeOctets octets = decodeKeeping octets ↔ Lossless octets :=
  ⟨lossless_of_decodeOctets, decodeOctets_of_lossless⟩

/-! ## Texts without triples -/

/-- No triple stands anywhere in the octets. -/
def NoTriple (octets : List UInt8) : Prop := ∀ rest ∈ octets.tails, frontTriple? rest = none

instance (octets : List UInt8) : Decidable (NoTriple octets) :=
  inferInstanceAs (Decidable (∀ rest ∈ octets.tails, frontTriple? rest = none))

theorem noTriple_cons {b : UInt8} {rest : List UInt8} :
    NoTriple (b :: rest) ↔ frontTriple? (b :: rest) = none ∧ NoTriple rest := by
  rw [NoTriple, List.tails_cons, List.forall_mem_cons]
  rfl

/-- Where there is no triple, everything is kept. -/
theorem NoTriple.decodeKeeping {octets : List UInt8} (h : NoTriple octets) :
    decodeKeeping octets = octets := by
  induction octets with
  | nil => rfl
  | cons b rest ih =>
    obtain ⟨hfront, hrest⟩ := noTriple_cons.mp h
    rw [decodeKeeping_cons hfront, ih hrest]

/-- Without triples nothing is lost exactly if a percent sign is the last octet at most. -/
theorem NoTriple.lossless_iff {octets : List UInt8} (h : NoTriple octets) :
    Lossless octets ↔ 0x25 ∉ octets.dropLast := by
  constructor
  · intro hlossless
    induction hlossless with
    | nil => exact List.not_mem_nil
    | @plain b rest hb _ ih =>
      cases rest with
      | nil => exact List.not_mem_nil
      | cons c rest =>
        rw [List.dropLast_cons_cons, List.mem_cons, not_or]
        exact ⟨hb.symm, ih (noTriple_cons.mp h).2⟩
    | triple hv => exact absurd ((noTriple_cons.mp h).1.symm.trans hv) (by simp)
    | last => exact List.not_mem_nil
    | ownDigit hd =>
      have htriple := (noTriple_cons.mp (noTriple_cons.mp h).2).1
      exact absurd (htriple.symm.trans (escaped?_of_decimal hd)) (by simp)
    | ownDigits hd =>
      have htriple := (noTriple_cons.mp (noTriple_cons.mp (noTriple_cons.mp h).2).2).1
      exact absurd (htriple.symm.trans (escaped?_of_decimal hd)) (by simp)
  · intro hlast
    induction octets with
    | nil => exact .nil
    | cons b rest ih =>
      cases rest with
      | nil =>
        by_cases hb : b = 0x25
        · rw [hb]
          exact .last
        · exact .plain hb .nil
      | cons c rest =>
        rw [List.dropLast_cons_cons, List.mem_cons, not_or] at hlast
        exact .plain (Ne.symm hlast.1) (ih (noTriple_cons.mp h).2 hlast.2)

theorem percent_mem_encodeChars {s : List Char} : 0x25 ∈ Text.encodeChars s ↔ '%' ∈ s := by
  constructor
  · intro h
    by_contra hnot
    exact Text.not_mem_encodeChars (a := '%') (by decide) hnot h
  · intro h
    exact List.mem_flatMap.mpr ⟨'%', h, List.mem_singleton.mpr rfl⟩

/-- A percent sign is a whole character, so no octet of another one before its last is one. -/
theorem percent_not_mem_dropLast_encodeChar (c : Char) :
    0x25 ∉ (Text.encodeChar c).dropLast := by
  by_cases hc : c.val.toNat ≤ 0x7F
  · rw [Text.encodeChar_of_ascii hc]
    exact List.not_mem_nil
  · intro h
    have hhigh := Text.le_toNat_of_mem_encodeChar (by omega) _ (List.mem_of_mem_dropLast h)
    exact absurd hhigh (by decide)

/-- The percent signs of a text are those of its octets, also before its end. -/
theorem percent_mem_dropLast_encode (s : String) :
    0x25 ∈ (Text.encode s).dropLast ↔ '%' ∈ s.toList.dropLast := by
  rw [Text.encode_eq_encodeChars]
  induction s.toList using List.reverseRecOn with
  | nil => exact iff_of_false List.not_mem_nil List.not_mem_nil
  | append_singleton before c _ =>
    have hlast : Text.encodeChars [c] = Text.encodeChar c := List.append_nil _
    have hsome : Text.encodeChar c ≠ [] := String.utf8EncodeChar_ne_nil
    rw [Text.encodeChars_append, hlast, List.dropLast_append_of_ne_nil hsome, List.mem_append,
      List.dropLast_concat, percent_mem_encodeChars]
    exact or_iff_left (percent_not_mem_dropLast_encodeChar c)

/-! ## Decoding texts -/

theorem percentDecode_of_lossless {s : String} (h : Lossless (Text.encode s)) :
    percentDecode s = percentDecodeKeeping s := by
  rw [percentDecode, percentDecodeKeeping, decodeOctets_of_lossless h]

theorem percentDecodeKeeping_of_noTriple {s : String} (h : NoTriple (Text.encode s)) :
    percentDecodeKeeping s = s := by
  rw [percentDecodeKeeping, h.decodeKeeping, Text.encode_eq_encodeChars,
    Text.decodeLossy_encodeChars, String.ofList_toList]

/-- The path of an identifier is what stands behind the scheme, decoded. -/
theorem toPath_scheme (s : String) : toPath (String.ofList scheme ++ s) = percentDecode s := by
  rw [toPath, String.toList_append, String.toList_ofList, Rpc.dropLead?_append]
  dsimp only
  rw [String.ofList_toList]

/-- **What decoding keeps.** Decoding replaces exactly the triples and keeps every other octet
exactly if the text is lossless; then it gives the text in which these octets are replaced, and so
does the path of an identifier. In a text without triples nothing is to be replaced; it is kept
exactly if it has no percent sign before its last character. -/
theorem decoding_keeps_iff (s : String) :
    (decodeOctets (Text.encode s) = decodeKeeping (Text.encode s) ↔ Lossless (Text.encode s))
      ∧ (Lossless (Text.encode s) → percentDecode s = percentDecodeKeeping s
        ∧ toPath (String.ofList scheme ++ s) = percentDecodeKeeping s)
      ∧ (NoTriple (Text.encode s) → percentDecodeKeeping s = s
        ∧ (decodeOctets (Text.encode s) = Text.encode s ↔ '%' ∉ s.toList.dropLast)) := by
  refine ⟨decodeOctets_eq_keeping_iff, ?_, ?_⟩
  · intro h
    rw [toPath_scheme, percentDecode_of_lossless h]
    exact ⟨rfl, rfl⟩
  · intro h
    refine ⟨percentDecodeKeeping_of_noTriple h, ?_⟩
    rw [← percent_mem_dropLast_encode, ← h.lossless_iff, ← decodeOctets_eq_keeping_iff,
      h.decodeKeeping]

/-- A path with a percent sign of its own loses the two characters behind it, and where these are
part of longer characters, what is left of them is no text. -/
theorem decoding_drops :
    NoTriple (Text.encode "/tmp/100%-done")
      ∧ percentDecodeKeeping "/tmp/100%-done" = "/tmp/100%-done"
      ∧ toPath "file:///tmp/100%-done" = "/tmp/100%one"
      ∧ percentDecodeKeeping "%%41" = "%A" ∧ percentDecode "%%41" = "%1"
      ∧ percentDecode "%aé" = "%\uFFFD" := by
  decide +kernel

end SymbolQuery.Uri
