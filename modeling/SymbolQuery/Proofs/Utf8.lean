/-
Text that was written in octets reads back as it was.

`readChar_encodeChar` is the fact for one character, whatever follows it; the reading of
a whole text is an induction on its characters. What is read leaves nothing over, so the
number of characters that the reader may take, the number of octets, is always enough.

The octet of an ASCII character belongs to no other character, so a text can be cut into
lines before it is read.
-/
import Mathlib.Data.List.Basic
import SymbolQuery.Text.Utf8

set_option autoImplicit false

namespace SymbolQuery.Text

/-! ## Octets of a text -/

/-- The octets of a byte array in the order in which they are listed. -/
theorem byteArray_loop (octets : ByteArray) (i : Nat) (done : List UInt8) :
    ByteArray.toList.loop octets i done = done.reverse ++ octets.data.toList.drop i := by
  rw [ByteArray.toList.loop]
  split
  · next hi =>
    have hi' : i < octets.data.toList.length := hi
    have hget : octets.get! i = octets.data.toList[i] := by
      change octets.data[i]! = octets.data.toList[i]
      rw [getElem!_pos octets.data i hi]
      rfl
    rw [byteArray_loop octets (i + 1), hget, List.reverse_cons, List.append_assoc,
      List.singleton_append, List.getElem_cons_drop]
  · next hi =>
    have hi' : octets.data.toList.length ≤ i := Nat.le_of_not_lt hi
    rw [List.drop_eq_nil_of_le hi', List.append_nil]
termination_by octets.size - i

/-- The octets of a text are those of its characters. -/
theorem encode_eq_encodeChars (s : String) : encode s = encodeChars s.toList := by
  have hoctets : s.toUTF8.data.toList = encodeChars s.toList := by
    change s.toByteArray.data.toList = _
    rw [← String.utf8Encode_toList, List.utf8Encode, List.toList_data_toByteArray]
    rfl
  rw [encode, ByteArray.toList, byteArray_loop, hoctets]
  rfl

theorem length_encode (s : String) : (encode s).length = s.utf8ByteSize := by
  rw [encode, ByteArray.toList, byteArray_loop]
  exact String.size_toByteArray

@[simp] theorem encodeChars_append (s t : List Char) :
    encodeChars (s ++ t) = encodeChars s ++ encodeChars t := List.flatMap_append

theorem encode_append (s t : String) : encode (s ++ t) = encode s ++ encode t := by
  rw [encode_eq_encodeChars, encode_eq_encodeChars, encode_eq_encodeChars, String.toList_append,
    encodeChars_append]

/-! ## Reading one character back -/

theorem toNat_ofNat_of_lt {n : Nat} (h : n < 256) : (UInt8.ofNat n).toNat = n := by
  rw [UInt8.toNat_ofNat', Nat.mod_eq_of_lt h]

/-- Whether an octet lies in a range, said of its value. -/
theorem inRange_of_toNat {low high b : UInt8} {n : Nat} (hb : b.toNat = n)
    (hn : low.toNat ≤ n ∧ n ≤ high.toNat) : (decide (low ≤ b) && decide (b ≤ high)) = true := by
  rw [Bool.and_eq_true, decide_eq_true_eq, decide_eq_true_eq, UInt8.le_iff_toNat_le,
    UInt8.le_iff_toNat_le, hb]
  exact hn

/-- The lead octets, by the number of octets that they announce. -/
theorem readChar_of_toNat {a : UInt8} {n : Nat} (ha : a.toNat = n) (rest : List UInt8) :
    readChar a rest
      = if n < 0x80 then .char (Char.ofNat n) rest
        else if n < 0xC2 then .invalid 1 rest
        else if n < 0xE0 then readTwo a rest
        else if n < 0xF0 then readThree a rest
        else if n < 0xF5 then readFour a rest
        else .invalid 1 rest := by
  subst ha
  rfl

/-- The octet that carries the six low bits of a number follows a lead octet. -/
theorem isTail_ofNat (n : Nat) : isTail (UInt8.ofNat (n % 64 + 128)) = true := by
  refine inRange_of_toNat (toNat_ofNat_of_lt (by omega)) ?_
  change 0x80 ≤ n % 64 + 128 ∧ n % 64 + 128 ≤ 0xBF
  omega

/-- It gives these bits back. -/
theorem tailBits_ofNat (n : Nat) : tailBits (UInt8.ofNat (n % 64 + 128)) = n % 64 := by
  unfold tailBits
  rw [toNat_ofNat_of_lt (by omega)]
  omega

theorem readChar_two {v : Nat} (hlow : 0x7F < v) (hhigh : v ≤ 0x7FF) (rest : List UInt8) :
    readChar (UInt8.ofNat (v / 64 % 32 + 192)) (UInt8.ofNat (v % 64 + 128) :: rest)
      = .char (Char.ofNat v) rest := by
  have ha : (UInt8.ofNat (v / 64 % 32 + 192)).toNat = v / 64 % 32 + 192 :=
    toNat_ofNat_of_lt (by omega)
  have hv : (v / 64 % 32 + 192) % 32 * 64 + v % 64 = v := by omega
  rw [readChar_of_toNat ha, if_neg (by omega), if_neg (by omega), if_pos (by omega), readTwo,
    if_pos (isTail_ofNat v), ha, tailBits_ofNat, hv]

/-- The second of three octets is in the range that its lead octet leaves, since the number is no
half of a surrogate pair and does not fit two octets. -/
theorem okSecondOfThree_ofNat {v : Nat} (hlow : 0x7FF < v) (hhigh : v ≤ 0xFFFF)
    (hvalid : v < 0xD800 ∨ 0xDFFF < v) :
    okSecondOfThree (UInt8.ofNat (v / 4096 % 16 + 224)) (UInt8.ofNat (v / 64 % 64 + 128))
      = true := by
  have ha : (UInt8.ofNat (v / 4096 % 16 + 224)).toNat = v / 4096 % 16 + 224 :=
    toNat_ofNat_of_lt (by omega)
  have hb : (UInt8.ofNat (v / 64 % 64 + 128)).toNat = v / 64 % 64 + 128 :=
    toNat_ofNat_of_lt (by omega)
  unfold okSecondOfThree
  split
  · next hlead =>
    have hlead : v / 4096 % 16 + 224 = 0xE0 := by rw [← ha, beq_iff_eq.mp hlead]; rfl
    refine inRange_of_toNat hb ?_
    change 0xA0 ≤ v / 64 % 64 + 128 ∧ v / 64 % 64 + 128 ≤ 0xBF
    omega
  · split
    · next hlead =>
      have hlead : v / 4096 % 16 + 224 = 0xED := by rw [← ha, beq_iff_eq.mp hlead]; rfl
      refine inRange_of_toNat hb ?_
      change 0x80 ≤ v / 64 % 64 + 128 ∧ v / 64 % 64 + 128 ≤ 0x9F
      omega
    · exact isTail_ofNat (v / 64)

theorem readChar_three {v : Nat} (hlow : 0x7FF < v) (hhigh : v ≤ 0xFFFF)
    (hvalid : v < 0xD800 ∨ 0xDFFF < v) (rest : List UInt8) :
    readChar (UInt8.ofNat (v / 4096 % 16 + 224))
        (UInt8.ofNat (v / 64 % 64 + 128) :: UInt8.ofNat (v % 64 + 128) :: rest)
      = .char (Char.ofNat v) rest := by
  have ha : (UInt8.ofNat (v / 4096 % 16 + 224)).toNat = v / 4096 % 16 + 224 :=
    toNat_ofNat_of_lt (by omega)
  have hsecond := okSecondOfThree_ofNat hlow hhigh hvalid
  have hv : (v / 4096 % 16 + 224) % 16 * 4096 + v / 64 % 64 * 64 + v % 64 = v := by omega
  rw [readChar_of_toNat ha, if_neg (by omega), if_neg (by omega), if_neg (by omega),
    if_pos (by omega), readThree, hsecond, Bool.not_true, if_neg Bool.false_ne_true]
  change (if isTail (UInt8.ofNat (v % 64 + 128)) then _ else _) = _
  rw [if_pos (isTail_ofNat v), ha, tailBits_ofNat, tailBits_ofNat, hv]

/-- The second of four octets is in the range that its lead octet leaves, since the number is a
character and does not fit three octets. -/
theorem okSecondOfFour_ofNat {v : Nat} (hlow : 0xFFFF < v) (hhigh : v < 0x110000) :
    okSecondOfFour (UInt8.ofNat (v / 262144 % 8 + 240)) (UInt8.ofNat (v / 4096 % 64 + 128))
      = true := by
  have ha : (UInt8.ofNat (v / 262144 % 8 + 240)).toNat = v / 262144 % 8 + 240 :=
    toNat_ofNat_of_lt (by omega)
  have hb : (UInt8.ofNat (v / 4096 % 64 + 128)).toNat = v / 4096 % 64 + 128 :=
    toNat_ofNat_of_lt (by omega)
  unfold okSecondOfFour
  split
  · next hlead =>
    have hlead : v / 262144 % 8 + 240 = 0xF0 := by rw [← ha, beq_iff_eq.mp hlead]; rfl
    refine inRange_of_toNat hb ?_
    change 0x90 ≤ v / 4096 % 64 + 128 ∧ v / 4096 % 64 + 128 ≤ 0xBF
    omega
  · split
    · next hlead =>
      have hlead : v / 262144 % 8 + 240 = 0xF4 := by rw [← ha, beq_iff_eq.mp hlead]; rfl
      refine inRange_of_toNat hb ?_
      change 0x80 ≤ v / 4096 % 64 + 128 ∧ v / 4096 % 64 + 128 ≤ 0x8F
      omega
    · exact isTail_ofNat (v / 4096)

theorem readChar_four {v : Nat} (hlow : 0xFFFF < v) (hhigh : v < 0x110000) (rest : List UInt8) :
    readChar (UInt8.ofNat (v / 262144 % 8 + 240))
        (UInt8.ofNat (v / 4096 % 64 + 128) :: UInt8.ofNat (v / 64 % 64 + 128)
          :: UInt8.ofNat (v % 64 + 128) :: rest)
      = .char (Char.ofNat v) rest := by
  have ha : (UInt8.ofNat (v / 262144 % 8 + 240)).toNat = v / 262144 % 8 + 240 :=
    toNat_ofNat_of_lt (by omega)
  have hsecond := okSecondOfFour_ofNat hlow hhigh
  have hv : (v / 262144 % 8 + 240) % 8 * 262144 + v / 4096 % 64 * 4096 + v / 64 % 64 * 64
      + v % 64 = v := by omega
  rw [readChar_of_toNat ha, if_neg (by omega), if_neg (by omega), if_neg (by omega),
    if_neg (by omega), if_pos (by omega), readFour, hsecond, Bool.not_true,
    if_neg Bool.false_ne_true]
  change (if !isTail (UInt8.ofNat (v / 64 % 64 + 128)) then _ else _) = _
  rw [isTail_ofNat, Bool.not_true, if_neg Bool.false_ne_true]
  rw [if_pos (isTail_ofNat v), ha, tailBits_ofNat, tailBits_ofNat, tailBits_ofNat, hv]

/-- **A character reads back**, whatever follows it. -/
theorem readChar_encodeChar (c : Char) (rest : List UInt8) :
    ∃ a more, encodeChar c = a :: more ∧ readChar a (more ++ rest) = .char c rest := by
  have hvalid : c.val.toNat < 0xD800 ∨ 0xDFFF < c.val.toNat ∧ c.val.toNat < 0x110000 := c.valid
  have hc : Char.ofNat c.val.toNat = c := Char.ofNat_toNat c
  unfold encodeChar String.utf8EncodeChar
  by_cases hone : c.val.toNat ≤ 0x7F
  · refine ⟨_, _, if_pos hone, ?_⟩
    rw [readChar_of_toNat (toNat_ofNat_of_lt (by omega)), if_pos (by omega), hc]
    rfl
  by_cases htwo : c.val.toNat ≤ 0x7FF
  · refine ⟨_, _, (if_neg hone).trans (if_pos htwo), ?_⟩
    exact (readChar_two (by omega) htwo rest).trans (by rw [hc])
  by_cases hthree : c.val.toNat ≤ 0xFFFF
  · refine ⟨_, _, (if_neg hone).trans ((if_neg htwo).trans (if_pos hthree)), ?_⟩
    exact (readChar_three (by omega) hthree (by omega) rest).trans (by rw [hc])
  · refine ⟨_, _, (if_neg hone).trans ((if_neg htwo).trans (if_neg hthree)), ?_⟩
    exact (readChar_four (by omega) (by omega) rest).trans (by rw [hc])

/-! ## Reading a whole text back -/

theorem decodeLoop_encodeChars (fuel : Nat) (done : List Char) (index : Nat) (s : List Char)
    (hfuel : s.length ≤ fuel) :
    decodeLoop fuel done index (encodeChars s) = .ok (done.reverse ++ s) := by
  induction s generalizing fuel done index with
  | nil =>
    rw [List.append_nil]
    unfold encodeChars decodeLoop
    rfl
  | cons c s ih =>
    obtain ⟨a, more, hchar, hread⟩ := readChar_encodeChar c (encodeChars s)
    have hsplit : encodeChars (c :: s) = a :: (more ++ encodeChars s) := by
      rw [encodeChars, List.flatMap_cons, hchar]
      rfl
    cases fuel with
    | zero => exact absurd hfuel (Nat.not_succ_le_zero _)
    | succ fuel =>
      rw [hsplit, decodeLoop, hread]
      change decodeLoop fuel (c :: done) (index + c.utf8Size) (encodeChars s) = _
      rw [ih _ _ _ (Nat.le_of_succ_le_succ hfuel), List.reverse_cons, List.append_assoc,
        List.singleton_append]

/-- A text has at least as many octets as characters. -/
theorem length_le_length_encodeChars (s : List Char) : s.length ≤ (encodeChars s).length := by
  induction s with
  | nil => exact Nat.le_refl 0
  | cons c s ih =>
    have hchar : (encodeChar c).length = c.utf8Size := String.length_utf8EncodeChar c
    have hpos := c.utf8Size_pos
    rw [encodeChars, List.flatMap_cons, List.length_append, List.length_cons, hchar]
    have ih : s.length ≤ (List.flatMap encodeChar s).length := ih
    omega

/-- **A text reads back** from its octets. -/
theorem decode_encodeChars (s : List Char) : decode (encodeChars s) = .ok s := by
  rw [decode, decodeLoop_encodeChars _ _ _ _ (length_le_length_encodeChars s)]
  rfl

theorem decodeLossyLoop_encodeChars (fuel : Nat) (done : List Char) (s : List Char)
    (hfuel : s.length ≤ fuel) :
    decodeLossyLoop fuel done (encodeChars s) = done.reverse ++ s := by
  induction s generalizing fuel done with
  | nil =>
    rw [List.append_nil]
    unfold encodeChars decodeLossyLoop
    rfl
  | cons c s ih =>
    obtain ⟨a, more, hchar, hread⟩ := readChar_encodeChar c (encodeChars s)
    have hsplit : encodeChars (c :: s) = a :: (more ++ encodeChars s) := by
      rw [encodeChars, List.flatMap_cons, hchar]
      rfl
    cases fuel with
    | zero => exact absurd hfuel (Nat.not_succ_le_zero _)
    | succ fuel =>
      rw [hsplit, decodeLossyLoop, hread]
      change decodeLossyLoop fuel (c :: done) (encodeChars s) = _
      rw [ih _ _ (Nat.le_of_succ_le_succ hfuel), List.reverse_cons, List.append_assoc,
        List.singleton_append]

/-- The lenient reading of a text is the text. -/
theorem decodeLossy_encodeChars (s : List Char) : decodeLossy (encodeChars s) = s :=
  decodeLossyLoop_encodeChars _ _ _ (length_le_length_encodeChars s)

/-! ## ASCII characters -/

/-- An ASCII character is its own octet. -/
theorem encodeChar_of_ascii {c : Char} (hc : c.val.toNat ≤ 0x7F) :
    encodeChar c = [UInt8.ofNat c.val.toNat] := if_pos hc

/-- Every octet of a character beyond ASCII is at least 128. -/
theorem le_toNat_of_mem_encodeChar {c : Char} (hc : 0x7F < c.val.toNat) :
    ∀ b ∈ encodeChar c, 128 ≤ b.toNat := by
  have hoctet (n : Nat) (hlow : 128 ≤ n) (hhigh : n < 256) : 128 ≤ (UInt8.ofNat n).toNat := by
    rw [toNat_ofNat_of_lt hhigh]
    exact hlow
  rw [encodeChar, String.utf8EncodeChar, if_neg (by omega)]
  split
  · rw [List.forall_mem_cons, List.forall_mem_singleton]
    exact ⟨hoctet _ (by omega) (by omega), hoctet _ (by omega) (by omega)⟩
  split
  · rw [List.forall_mem_cons, List.forall_mem_cons, List.forall_mem_singleton]
    exact ⟨hoctet _ (by omega) (by omega), hoctet _ (by omega) (by omega),
      hoctet _ (by omega) (by omega)⟩
  · rw [List.forall_mem_cons, List.forall_mem_cons, List.forall_mem_cons,
      List.forall_mem_singleton]
    exact ⟨hoctet _ (by omega) (by omega), hoctet _ (by omega) (by omega),
      hoctet _ (by omega) (by omega), hoctet _ (by omega) (by omega)⟩

/-- The octet of an ASCII character is found in no other character. -/
theorem eq_of_mem_encodeChar {a c : Char} (ha : a.val.toNat ≤ 0x7F)
    (h : UInt8.ofNat a.val.toNat ∈ encodeChar c) : c = a := by
  by_cases hc : 0x7F < c.val.toNat
  · have hhigh := le_toNat_of_mem_encodeChar hc _ h
    rw [toNat_ofNat_of_lt (by omega)] at hhigh
    omega
  · have hval : a.val.toNat = c.val.toNat := by
      rw [encodeChar, String.utf8EncodeChar, if_pos (by omega)] at h
      rw [← toNat_ofNat_of_lt (show a.val.toNat < 256 by omega), List.mem_singleton.mp h]
      exact toNat_ofNat_of_lt (by omega)
    rw [← Char.ofNat_toNat c, ← Char.ofNat_toNat a]
    exact congrArg Char.ofNat hval.symm

theorem not_mem_encodeChars {a : Char} (ha : a.val.toNat ≤ 0x7F) {s : List Char} (h : a ∉ s) :
    UInt8.ofNat a.val.toNat ∉ encodeChars s := by
  intro hmem
  obtain ⟨c, hc, hoctet⟩ := List.mem_flatMap.mp hmem
  rw [eq_of_mem_encodeChar ha hoctet] at hc
  exact h hc

theorem newline_not_mem_encodeChars {s : List Char} (h : '\n' ∉ s) :
    (0x0A : UInt8) ∉ encodeChars s := by
  have hoctet : UInt8.ofNat '\n'.val.toNat ∉ encodeChars s := not_mem_encodeChars (by decide) h
  exact hoctet

end SymbolQuery.Text
