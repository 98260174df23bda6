/-
How deep what a text holds may be nested.

A reader has a limit for the nesting of arrays and objects, and refuses a text beyond it. It
decides nothing else: what is read under one limit is read the same under every larger one. So
it makes sense to speak of the value that a text is the text of, whoever reads it and with
whatever limit.

What is written for a value is read under a limit exactly if the value is nested less deep. It
is then read with the keys of its objects in order; and where it is nested too deep, this is
what the reader finds wrong, whatever the value holds besides. Both are one induction on the
value, since an array is refused at its first item that is nested too deep.
-/
import SymbolQuery.Proofs.CompactText
import SymbolQuery.Proofs.ObjectKeys

set_option autoImplicit false

namespace SymbolQuery.Json

/-! ## Larger limits -/

/-- Whatever the first gives, the second gives too. -/
def Extends {α : Type} (x y : Except SyntaxFault α) : Prop := ∀ a, x = .ok a → y = .ok a

namespace Extends

variable {α β : Type} {x y : Except SyntaxFault α}

theorem refl (x : Except SyntaxFault α) : Extends x x := fun _ h => h

theorem bind {f g : α → Except SyntaxFault β} (hx : Extends x y) (hf : ∀ a, Extends (f a) (g a)) :
    Extends (x >>= f) (y >>= g) := by
  intro b h
  obtain ⟨a, ha, hb⟩ := exists_of_bind h
  rw [hx a ha]
  exact hf a b hb

theorem ite {c : Prop} [Decidable c] {x' y' : Except SyntaxFault α} (h : Extends x y)
    (h' : Extends x' y') : Extends (if c then x else x') (if c then y else y') := by
  split
  · exact h
  · exact h'

/-- A bracket that is within one limit is within every larger one. -/
theorem bracket {limit limit' : Nat} (hlimit : limit ≤ limit') (rest : List Char)
    (h : Extends x y) :
    Extends (if limit ≤ 1 then failAt .tooDeep rest else x)
      (if limit' ≤ 1 then failAt .tooDeep rest else y) := by
  by_cases hdeep : limit ≤ 1
  · rw [if_pos hdeep]
    rintro _ ⟨⟩
  · rw [if_neg hdeep, if_neg (by omega)]
    exact h

end Extends

mutual

/-- **What is read under one limit is read the same under every larger one.** -/
theorem extends_readValue {limit limit' : Nat} (hlimit : limit ≤ limit') (fuel : Nat)
    (s : List Char) : Extends (readValue fuel limit s) (readValue fuel limit' s) := by
  match fuel with
  | 0 =>
    rw [readValue, readValue]
    exact .refl _
  | fuel + 1 =>
    rw [readValue, readValue]
    cases skipBlanks s with
    | nil => exact .refl _
    | cons c cs =>
      have hlimit' : limit - 1 ≤ limit' - 1 := by omega
      refine .ite (.refl _) (.ite (.refl _) (.ite (.refl _) (.ite (.refl _) (.ite (.refl _)
        (.ite (.refl _) (.ite ?_ (.ite ?_ (.refl _))))))))
      · exact .bracket hlimit _ (extends_readItems hlimit' fuel true [] cs)
      · exact .bracket hlimit _ (extends_readFields hlimit' fuel true [] cs)

theorem extends_readItems {limit limit' : Nat} (hlimit : limit ≤ limit') (fuel : Nat) (first : Bool)
    (done : List Json) (s : List Char) :
    Extends (readItems fuel limit first done s) (readItems fuel limit' first done s) := by
  match fuel with
  | 0 =>
    rw [readItems, readItems]
    exact .refl _
  | fuel + 1 =>
    rw [readItems, readItems]
    cases skipBlanks s with
    | nil => exact .refl _
    | cons c cs =>
      have hitem : ∀ t, Extends
          (do
            let (v, rest) ← readValue fuel limit t
            readItems fuel limit false (v :: done) rest)
          (do
            let (v, rest) ← readValue fuel limit' t
            readItems fuel limit' false (v :: done) rest) :=
        fun t => (extends_readValue hlimit fuel t).bind fun (v, rest) =>
          extends_readItems hlimit fuel false (v :: done) rest
      refine .ite (.refl _) (.ite (hitem _) (.ite ?_ (.refl _)))
      split
      · exact .refl _
      · exact .refl _
      · exact hitem _

theorem extends_readFields {limit limit' : Nat} (hlimit : limit ≤ limit') (fuel : Nat)
    (first : Bool) (done : List (String × Json)) (s : List Char) :
    Extends (readFields fuel limit first done s) (readFields fuel limit' first done s) := by
  match fuel with
  | 0 =>
    rw [readFields, readFields]
    exact .refl _
  | fuel + 1 =>
    rw [readFields, readFields]
    cases skipBlanks s with
    | nil => exact .refl _
    | cons c cs =>
      refine .ite (.refl _) (.ite (.ite (extends_readField hlimit fuel done cs) (.refl _))
        (.ite ?_ (.refl _)))
      cases skipBlanks cs with
      | nil => exact .refl _
      | cons d more => exact .ite (extends_readField hlimit fuel done more) (.refl _)

theorem extends_readField {limit limit' : Nat} (hlimit : limit ≤ limit') (fuel : Nat)
    (done : List (String × Json)) (s : List Char) :
    Extends (readField fuel limit done s) (readField fuel limit' done s) := by
  match fuel with
  | 0 =>
    rw [readField, readField]
    exact .refl _
  | fuel + 1 =>
    rw [readField, readField]
    refine (Extends.refl _).bind fun (key, rest) => ?_
    dsimp only
    cases skipBlanks rest with
    | nil => exact .refl _
    | cons c cs =>
      refine .ite ((extends_readValue hlimit fuel cs).bind fun (v, rest) => ?_) (.refl _)
      exact extends_readFields hlimit fuel false (insertField key v done) rest

end

theorem parseWithin_mono {limit limit' : Nat} {s : List Char} {v : Json}
    (h : parseWithin limit s = .ok v) (hlimit : limit ≤ limit') : parseWithin limit' s = .ok v :=
  (extends_readValue hlimit _ s).bind (fun _ => .refl _) v h

/-! ## The value of a text -/

/-- A text of a value: whoever allows it to be nested as deep as it is reads this value. -/
def IsTextOf (s : List Char) (v : Json) : Prop := ∃ limit, parseWithin limit s = .ok v

variable {s : List Char} {v w : Json}

theorem isTextOf_of_parse (h : parseChars s = .ok v) : IsTextOf s v := ⟨_, h⟩

/-- A text is the text of one value at most. -/
theorem IsTextOf.unique (hv : IsTextOf s v) (hw : IsTextOf s w) : v = w := by
  obtain ⟨m, hv⟩ := hv
  obtain ⟨n, hw⟩ := hw
  have hmax := parseWithin_mono hv (Nat.le_max_left m n)
  rw [parseWithin_mono hw (Nat.le_max_right m n)] at hmax
  exact (Except.ok.inj hmax).symm

/-! ## Numbers -/

/-- The integers that are read as integers: those of 64 bits, signed or unsigned. -/
def IsInteger (i : Int) : Prop := -9223372036854775808 ≤ i ∧ i ≤ 18446744073709551615

mutual

/-- A value whose numbers all are integers of 64 bits. -/
def Integral : Json → Prop
  | .num (.int i) => IsInteger i
  | .num (.real _) => False
  | .arr items => IntegralItems items
  | .obj fields => IntegralFields fields
  | _ => True

/-- `Integral` of every item. -/
def IntegralItems : List Json → Prop
  | [] => True
  | v :: rest => Integral v ∧ IntegralItems rest

/-- `Integral` of every field's value. -/
def IntegralFields : List (String × Json) → Prop
  | [] => True
  | (_, v) :: rest => Integral v ∧ IntegralFields rest

end

/-- A place where a value can be over: no character goes on with a number. -/
def Ends (rest : List Char) : Prop := ∀ c ∈ rest.head?, c ∈ [',', ']', '\x7d']

theorem Ends.nil : Ends [] := by
  rintro _ ⟨⟩

theorem Ends.cons {c : Char} (h : c ∈ [',', ']', '\x7d']) (rest : List Char) :
    Ends (c :: rest) := by
  rintro _ ⟨⟩
  exact h

theorem isDigit_eq (c : Char) : isDigit c = c.isDigit := by
  rw [isDigit, Char.isDigit]
  rfl

theorem Ends.takeWhile_digits {ds rest : List Char} (hds : ∀ c ∈ ds, c.isDigit = true)
    (hrest : Ends rest) :
    (ds ++ rest).takeWhile isDigit = ds ∧ (ds ++ rest).dropWhile isDigit = rest := by
  have hall : ∀ c ∈ ds, isDigit c = true := fun c hc => (isDigit_eq c).trans (hds c hc)
  rw [List.takeWhile_append_of_pos hall, List.dropWhile_append_of_pos hall]
  cases rest with
  | nil => exact ⟨List.append_nil ds, rfl⟩
  | cons c cs =>
    have hc : ¬ isDigit c = true := by
      have hmem := hrest c rfl
      simp only [List.mem_cons, List.not_mem_nil, or_false] at hmem
      obtain rfl | rfl | rfl := hmem <;> decide
    rw [List.takeWhile_cons_of_neg hc, List.dropWhile_cons_of_neg hc, List.append_nil]
    exact ⟨rfl, rfl⟩

/-- Digits whose value fits 64 bits are taken, all of them. -/
theorem takeDigits_of_isDigit {acc : Nat} {ds : List Char} (hds : ∀ c ∈ ds, c.isDigit = true)
    (hle : Nat.ofDigitChars 10 ds acc ≤ Text.max64) :
    takeDigits acc ds = (Nat.ofDigitChars 10 ds acc, []) := by
  induction ds generalizing acc with
  | nil => rfl
  | cons c ds ih =>
    obtain ⟨hc, hds⟩ := List.forall_mem_cons.mp hds
    rw [Nat.ofDigitChars_cons] at hle ⊢
    have hacc : acc * 10 + digit c ≤ Text.max64 :=
      Text.step_le_of_ofDigitChars_le hle
    have hcomm : acc * 10 + digit c = 10 * acc + (c.toNat - '0'.toNat) := by
      rw [digit]
      omega
    rw [takeDigits, if_pos hacc, hcomm]
    exact ih hds hle

/-- A number is not written with a zero in front. -/
theorem head_toDigits {n : Nat} {ds : List Char} (h : Nat.toDigits 10 n = '0' :: ds) : ds = [] := by
  have hhead : ∀ n, 0 < n → (Nat.toDigits 10 n).head? ≠ some '0' := by
    intro n
    induction n using Nat.strongRecOn with
    | _ n ih =>
      intro hn
      by_cases hlt : n < 10
      · have hall : ∀ m < 10, 0 < m → (Nat.toDigits 10 m).head? ≠ some '0' := by decide
        exact hall n hlt hn
      · rw [Nat.toDigits_of_base_le (by omega) (by omega), List.head?_append_of_ne_nil]
        · exact ih (n / 10) (by omega) (by omega)
        · exact Nat.toDigits_ne_nil
  obtain rfl | hn := Nat.eq_zero_or_pos n
  · rw [Nat.toDigits_zero] at h
    cases h
    rfl
  · exact absurd (congrArg List.head? h) (hhead n hn)

/-- The digits of a number are read to their end, whatever sign is in front. -/
theorem readNumber_toDigits {n : Nat} (hn : n ≤ Text.max64) {rest : List Char} (hrest : Ends rest)
    (negative : Bool) (hnegative : negative = true → 0 < n ∧ n ≤ 9223372036854775808) :
    readNumber negative (Nat.toDigits 10 n ++ rest)
      = .ok (.num (.int (if negative then -(n : Int) else n)), rest) := by
  have hds : ∀ c ∈ Nat.toDigits 10 n, c.isDigit = true := fun _ => Text.isDigit_of_mem_toDigits
  have hvalue : Nat.ofDigitChars 10 (Nat.toDigits 10 n) 0 = n := Nat.ofDigitChars_ten_toDigits
  have htake := takeDigits_of_isDigit hds (hvalue.symm ▸ hn)
  rw [hvalue] at htake
  obtain ⟨hbefore, hafter⟩ := hrest.takeWhile_digits hds
  have hne : Nat.toDigits 10 n ≠ [] := Nat.toDigits_ne_nil
  have hzero : ∀ d more, Nat.toDigits 10 n ≠ '0' :: d :: more := fun d more h => by
    cases head_toDigits h
  unfold readNumber
  -- the digits are some, and no zero in front of others
  simp only [hbefore, hafter, htake, List.isEmpty_nil, Bool.true_and]
  -- what ends a number is no point and no exponent
  have hplain : ∀ c ∈ rest.head?, c ≠ '.' ∧ c ≠ 'e' ∧ c ≠ 'E' := by
    intro c hc
    have hmem := hrest c hc
    simp only [List.mem_cons, List.not_mem_nil, or_false] at hmem
    obtain rfl | rfl | rfl := hmem <;> decide
  cases rest with
  | nil => cases negative <;> simp_all
  | cons c cs =>
    obtain ⟨hdot, hsmall, hlarge⟩ := hplain c rfl
    cases negative <;> simp_all

/-- **An integer is read back.** -/
theorem readNumber_toString {i : Int} (hi : IsInteger i) {rest : List Char} (hrest : Ends rest) :
    (0 ≤ i ∧ ∃ d ds, d.isDigit = true ∧ (toString i).toList = d :: ds
        ∧ readNumber false (d :: ds ++ rest) = .ok (.num (.int i), rest))
      ∨ (i < 0 ∧ ∃ ds, (toString i).toList = '-' :: ds
        ∧ readNumber true (ds ++ rest) = .ok (.num (.int i), rest)) := by
  obtain ⟨hlow, hhigh⟩ := hi
  cases i with
  | ofNat n =>
    have hn : n ≤ Text.max64 := Int.ofNat_le.mp hhigh
    have hread := readNumber_toDigits hn hrest false (fun h => by cases h)
    have htext : (toString (Int.ofNat n)).toList = Nat.toDigits 10 n := Nat.toList_repr
    have hdigits : ∀ c ∈ Nat.toDigits 10 n, c.isDigit = true := fun _ =>
      Text.isDigit_of_mem_toDigits
    have hne : Nat.toDigits 10 n ≠ [] := Nat.toDigits_ne_nil
    rw [htext]
    obtain ⟨d, ds, hds⟩ := List.exists_cons_of_ne_nil hne
    rw [hds] at hread hdigits ⊢
    exact .inl ⟨Int.natCast_nonneg n, d, ds, hdigits d List.mem_cons_self, rfl, hread⟩
  | negSucc n =>
    have hn : n + 1 ≤ 9223372036854775808 := by omega
    have hread := readNumber_toDigits (n := n + 1) (by rw [Text.max64]; omega) hrest true
      (fun _ => ⟨Nat.succ_pos n, hn⟩)
    have htext : (toString (Int.negSucc n)).toList = '-' :: Nat.toDigits 10 (n + 1) := by
      change ("-" ++ Nat.repr (n + 1)).toList = _
      rw [String.toList_append, Nat.toList_repr]
      rfl
    exact .inr ⟨Int.negSucc_lt_zero n, _, htext, hread⟩

/-! ## Strings -/

theorem hexValue?_hexDigit {n : Nat} (h : n < 16) : hexValue? (hexDigit n) = some n := by
  have hall : ∀ n < 16, hexValue? (hexDigit n) = some n := by decide
  exact hall n h

/-- A control character is read back from its number. -/
theorem readUnicode_control {c : Char} (h : c.toNat < 0x20) (rest : List Char) :
    readUnicode ('0' :: '0' :: hexDigit (c.toNat / 16) :: hexDigit (c.toNat % 16) :: rest)
      = .ok (c, rest) := by
  have hzero : hexValue? '0' = some 0 := rfl
  have hhigh := hexValue?_hexDigit (n := c.toNat / 16) (by omega)
  have hlow := hexValue?_hexDigit (n := c.toNat % 16) (by omega)
  have hsum : 0 * 4096 + 0 * 256 + c.toNat / 16 * 16 + c.toNat % 16 = c.toNat := by omega
  have hhex : readHex ('0' :: '0' :: hexDigit (c.toNat / 16) :: hexDigit (c.toNat % 16) :: rest)
      = .ok (c.toNat, rest) := by
    simp only [readHex, hzero, hhigh, hlow, hsum]
  rw [readUnicode, hhex]
  change (if 0xDC00 ≤ c.toNat ∧ c.toNat ≤ 0xDFFF then _ else _) = _
  rw [if_neg (by omega), if_neg (by omega), Char.ofNat_toNat]
  rfl

/-- **A character is read back** from the way it is written inside a string. -/
theorem readString_escapeChar (c : Char) (fuel : Nat) (done rest : List Char) :
    readString (fuel + 1) done (escapeChar c ++ rest) = readString fuel (c :: done) rest := by
  unfold escapeChar
  split
  · next h => subst h; rfl
  split
  · next h => subst h; rfl
  split
  · next h => subst h; rfl
  split
  · next h => subst h; rfl
  split
  · next h => subst h; rfl
  split
  · next h =>
    obtain rfl : c = Char.ofNat 8 := by rw [← h, Char.ofNat_toNat]
    rfl
  split
  · next h =>
    obtain rfl : c = Char.ofNat 12 := by rw [← h, Char.ofNat_toNat]
    rfl
  split
  · next h =>
    have hread : readEscape ('u' :: '0' :: '0' :: hexDigit (c.toNat / 16)
        :: hexDigit (c.toNat % 16) :: rest) = .ok (c, rest) := readUnicode_control h rest
    simp only [List.cons_append, List.nil_append]
    rw [readString, if_neg (by decide), if_pos rfl, hread]
    rfl
  · next hquote hbackslash _ _ _ _ _ hcontrol =>
    rw [List.singleton_append, readString, if_neg hquote, if_neg hbackslash, if_neg hcontrol]

theorem readString_escaped (cs : List Char) {fuel : Nat} (hfuel : cs.length < fuel)
    (done rest : List Char) :
    readString fuel done (cs.flatMap escapeChar ++ '"' :: rest)
      = .ok (String.ofList (done.reverse ++ cs), rest) := by
  obtain ⟨fuel, rfl⟩ : ∃ k, fuel = k + 1 := ⟨fuel - 1, by omega⟩
  induction cs generalizing fuel done with
  | nil =>
    rw [List.append_nil]
    rfl
  | cons c cs ih =>
    rw [List.length_cons] at hfuel
    obtain ⟨k, rfl⟩ : ∃ k, fuel = k + 1 := ⟨fuel - 1, by omega⟩
    rw [List.flatMap_cons, List.append_assoc, readString_escapeChar, ih (c :: done) k (by omega),
      List.reverse_cons, List.append_assoc, List.singleton_append]

theorem toList_quote (s : String) :
    (quote s).toList = '"' :: (s.toList.flatMap escapeChar ++ ['"']) := by
  unfold quote
  rw [String.toList_ofList, List.cons_append]

theorem length_le_escaped (cs : List Char) : cs.length ≤ (cs.flatMap escapeChar).length := by
  induction cs with
  | nil => exact Nat.le_refl 0
  | cons c cs ih =>
    have hc : 1 ≤ (escapeChar c).length := by
      unfold escapeChar
      repeat' split
      all_goals simp
    rw [List.flatMap_cons, List.length_append, List.length_cons]
    omega

/-- **A string is read back** behind its first quote. -/
theorem readString_quote (s : String) (rest : List Char) :
    ∃ cs, (quote s).toList ++ rest = '"' :: cs
      ∧ readString (cs.length + 1) [] cs = .ok (s, rest) := by
  refine ⟨s.toList.flatMap escapeChar ++ '"' :: rest, ?_, ?_⟩
  · rw [toList_quote, List.cons_append, List.append_assoc, List.singleton_append]
  · have hfuel : s.toList.length
        < (s.toList.flatMap escapeChar ++ '"' :: rest).length + 1 := by
      have hle := length_le_escaped s.toList
      rw [List.length_append]
      omega
    rw [readString_escaped s.toList hfuel, List.reverse_nil, List.nil_append, String.ofList_toList]

/-! ## Values -/

/-- What comes of reading something that is nested so deep: it is read if the limit is larger, and
else its nesting is what is wrong with it. -/
def ReadsWithin {α : Type} (limit depth : Nat) (x : Except SyntaxFault α) (a : α) : Prop :=
  (depth < limit → x = .ok a) ∧ (limit ≤ depth → ∃ rest, x = failAt .tooDeep rest)

namespace ReadsWithin

variable {α β : Type} {limit depth depth' : Nat} {x : Except SyntaxFault α} {a : α}

theorem plain (hlimit : 0 < limit) (h : x = .ok a) : ReadsWithin limit 0 x a :=
  ⟨fun _ => h, fun hle => absurd hle (by omega)⟩

theorem bind {f : α → Except SyntaxFault β} {b : β} (hx : ReadsWithin limit depth x a)
    (hf : ReadsWithin limit depth' (f a) b) :
    ReadsWithin limit (max depth depth') (x >>= f) b := by
  constructor
  · intro hlt
    rw [hx.1 (by omega)]
    exact hf.1 (by omega)
  · intro hle
    -- what is nested too deep may stand in the first part or behind it
    by_cases hdeep : limit ≤ depth
    · obtain ⟨rest, hfault⟩ := hx.2 hdeep
      exact ⟨rest, by rw [hfault]; rfl⟩
    · obtain ⟨rest, hfault⟩ := hf.2 (by omega)
      refine ⟨rest, ?_⟩
      rw [hx.1 (by omega)]
      exact hfault

theorem bracket (rest : List Char) (h : 1 < limit → ReadsWithin (limit - 1) depth x a) :
    ReadsWithin limit (depth + 1) (if limit ≤ 1 then failAt .tooDeep rest else x) a := by
  by_cases hdeep : limit ≤ 1
  · rw [if_pos hdeep]
    exact ⟨fun hlt => absurd hlt (by omega), fun _ => ⟨rest, rfl⟩⟩
  · rw [if_neg hdeep]
    have hinside := h (by omega)
    exact ⟨fun hlt => hinside.1 (by omega), fun hle => hinside.2 (by omega)⟩

end ReadsWithin

theorem skipBlanks_cons {c : Char} (h : c ∉ [' ', '\n', '\t', '\r']) (cs : List Char) :
    skipBlanks (c :: cs) = c :: cs := by
  have hc : ¬ (decide (c = ' ' ∨ c = '\n' ∨ c = '\t' ∨ c = '\r')) = true := by
    simpa using h
  exact List.dropWhile_cons_of_neg hc

theorem toList_arr (items : List Json) :
    (arr items).compact.toList = '[' :: ((compactItems true items).toList ++ [']']) := by
  rw [compact, String.toList_append, String.toList_append]
  rfl

theorem toList_obj (fields : List (String × Json)) :
    (obj fields).compact.toList = '\x7b' :: ((compactFields true fields).toList ++ ['\x7d']) := by
  rw [compact, String.toList_append, String.toList_append]
  rfl

theorem toList_compactItems_cons (first : Bool) (v : Json) (items : List Json) :
    (compactItems first (v :: items)).toList
      = (if first then [] else [','])
        ++ (v.compact.toList ++ (compactItems false items).toList) := by
  rw [compactItems, String.toList_append, String.toList_append, List.append_assoc]
  cases first <;> rfl

theorem toList_compactFields_cons (first : Bool) (k : String) (v : Json)
    (fields : List (String × Json)) :
    (compactFields first ((k, v) :: fields)).toList
      = (if first then [] else [',']) ++ ((quote k).toList
          ++ (':' :: (v.compact.toList ++ (compactFields false fields).toList))) := by
  simp only [compactFields, String.toList_append, List.append_assoc]
  cases first <;> rfl

/-- What is written for a value begins with none of the characters between values. -/
theorem exists_head {v : Json} (hv : v.Integral) :
    ∃ c cs, v.compact.toList = c :: cs ∧ c ∉ [' ', '\n', '\t', '\r', ']'] := by
  cases v with
  | null => exact ⟨'n', _, rfl, by decide⟩
  | bool b => cases b <;> exact ⟨_, _, rfl, by decide⟩
  | num n =>
    cases n with
    | real _ => exact False.elim hv
    | int i =>
      obtain ⟨-, d, ds, hd, htext, -⟩ | ⟨-, ds, htext, -⟩ := readNumber_toString hv Ends.nil
      · refine ⟨d, ds, htext, fun hmem => ?_⟩
        simp only [List.mem_cons, List.not_mem_nil, or_false] at hmem
        obtain rfl | rfl | rfl | rfl | rfl := hmem <;> exact absurd hd (by decide)
      · exact ⟨'-', ds, htext, by decide⟩
  | str s => exact ⟨'"', _, toList_quote s, by decide⟩
  | arr items => exact ⟨'[', _, toList_arr items, by decide⟩
  | obj fields => exact ⟨'\x7b', _, toList_obj fields, by decide⟩

/-- There is fuel where there has to be as much as for a text. -/
theorem exists_fuel {v : Json} (hv : v.Integral) {fuel : Nat}
    (h : 3 * v.compact.toList.length ≤ fuel) : ∃ k, fuel = k + 1 := by
  obtain ⟨c, cs, htext, -⟩ := exists_head hv
  rw [htext, List.length_cons] at h
  exact ⟨fuel - 1, by omega⟩

theorem Ends.items (rest : List Json) (more : List Char) :
    Ends ((compactItems false rest).toList ++ ']' :: more) := by
  cases rest with
  | nil => exact .cons (by decide) _
  | cons v rest =>
    rw [compactItems, String.toList_append, String.toList_append]
    exact .cons (by decide) _

theorem Ends.fields (rest : List (String × Json)) (more : List Char) :
    Ends ((compactFields false rest).toList ++ '\x7d' :: more) := by
  cases rest with
  | nil => exact .cons (by decide) _
  | cons field rest =>
    obtain ⟨k, v⟩ := field
    simp only [compactFields, String.toList_append]
    exact .cons (by decide) _

/-- Behind a bracket come items. -/
theorem readValue_bracket (fuel limit : Nat) (cs : List Char) :
    readValue (fuel + 1) limit ('[' :: cs)
      = if limit ≤ 1 then failAt .tooDeep ('[' :: cs)
        else readItems fuel (limit - 1) true [] cs := by
  rw [readValue, skipBlanks_cons (by decide)]
  rfl

/-- Behind a brace come fields. -/
theorem readValue_brace (fuel limit : Nat) (cs : List Char) :
    readValue (fuel + 1) limit ('\x7b' :: cs)
      = if limit ≤ 1 then failAt .tooDeep ('\x7b' :: cs)
        else readFields fuel (limit - 1) true [] cs := by
  rw [readValue, skipBlanks_cons (by decide)]
  rfl

/-- An integer is read as a value. -/
theorem readValue_int {i : Int} (hi : IsInteger i) {rest : List Char} (hrest : Ends rest)
    (fuel limit : Nat) :
    readValue (fuel + 1) limit ((toString i).toList ++ rest) = .ok (.num (.int i), rest) := by
  obtain ⟨-, d, ds, hd, htext, hread⟩ | ⟨-, ds, htext, hread⟩ := readNumber_toString hi hrest
  · have hne : ∀ c : Char, c.isDigit = false → d ≠ c := by
      rintro c hc rfl
      rw [hd] at hc
      cases hc
    have hblank : d ∉ [' ', '\n', '\t', '\r'] := by
      simp [hne]
    rw [htext, List.cons_append, readValue, skipBlanks_cons hblank]
    dsimp only
    rw [if_neg (hne 'n' rfl), if_neg (hne 't' rfl), if_neg (hne 'f' rfl), if_neg (hne '-' rfl),
      if_pos ((isDigit_eq d).trans hd)]
    exact hread
  · rw [htext, List.cons_append, readValue, skipBlanks_cons (by decide)]
    exact hread

mutual

/-- **What is written for a value is read**, unless it is nested too deep. Of fuel there has to be
three times as much as the text is long. -/
theorem readValue_compact : ∀ (v : Json), v.Integral → ∀ (fuel limit : Nat) (rest : List Char),
    0 < limit → Ends rest → 3 * v.compact.toList.length ≤ fuel →
      ReadsWithin limit v.depth (readValue fuel limit (v.compact.toList ++ rest))
        (v.canonical, rest)
  | .null, hv
  | .bool true, hv
  | .bool false, hv => by
    intro fuel limit rest hlimit _ hfuel
    obtain ⟨fuel, rfl⟩ := exists_fuel hv hfuel
    refine .plain hlimit ?_
    rw [readValue]
    rfl
  | .num (.real _), hv => False.elim hv
  | .num (.int i), hv => by
    intro fuel limit rest hlimit hrest hfuel
    obtain ⟨fuel, rfl⟩ := exists_fuel hv hfuel
    exact .plain hlimit (readValue_int hv hrest fuel limit)
  | .str s, hv => by
    intro fuel limit rest hlimit _ hfuel
    obtain ⟨fuel, rfl⟩ := exists_fuel hv hfuel
    refine .plain hlimit ?_
    obtain ⟨cs, htext, hread⟩ := readString_quote s rest
    rw [compact, htext, readValue, skipBlanks_cons (by decide)]
    change (readString (cs.length + 1) [] cs >>= _) = _
    rw [hread]
    rfl
  | .arr items, hv => by
    intro fuel limit rest hlimit _ hfuel
    obtain ⟨fuel, rfl⟩ := exists_fuel hv hfuel
    rw [toList_arr] at hfuel ⊢
    rw [List.cons_append, List.append_assoc, readValue_bracket]
    refine .bracket _ fun hone => ?_
    refine readItems_compactItems items hv fuel _ true [] rest (by omega) ?_
    simp only [List.length_cons, List.length_append, List.length_nil] at hfuel
    omega
  | .obj fields, hv => by
    intro fuel limit rest hlimit _ hfuel
    obtain ⟨fuel, rfl⟩ := exists_fuel hv hfuel
    rw [toList_obj] at hfuel ⊢
    rw [List.cons_append, List.append_assoc, readValue_brace]
    refine .bracket _ fun hone => ?_
    refine readFields_compactFields fields hv fuel _ true [] rest (by omega) ?_
    simp only [List.length_cons, List.length_append, List.length_nil] at hfuel
    omega

theorem readItems_compactItems : ∀ (items : List Json), IntegralItems items →
    ∀ (fuel limit : Nat) (first : Bool) (done : List Json) (rest : List Char), 0 < limit →
      3 * (compactItems first items).toList.length + 1 ≤ fuel →
        ReadsWithin limit (depthItems items)
          (readItems fuel limit first done ((compactItems first items).toList ++ ([']'] ++ rest)))
          (.arr (done.reverse ++ canonicalItems items), rest)
  | [], _, fuel, limit, first, done, rest, hlimit, hfuel => by
    obtain ⟨fuel, rfl⟩ : ∃ k, fuel = k + 1 := ⟨fuel - 1, by omega⟩
    refine .plain hlimit ?_
    rw [canonicalItems, List.append_nil, readItems]
    rfl
  | v :: items, ⟨hv, hitems⟩, fuel, limit, first, done, rest, hlimit, hfuel => by
    obtain ⟨fuel, rfl⟩ : ∃ k, fuel = k + 1 := ⟨fuel - 1, by omega⟩
    obtain ⟨c, cs, htext, hc⟩ := exists_head hv
    simp only [List.mem_cons, List.not_mem_nil, or_false, not_or] at hc
    obtain ⟨hspace, hfeed, htab, hreturn, hclose⟩ := hc
    have hblank : c ∉ [' ', '\n', '\t', '\r'] := by
      simp [hspace, hfeed, htab, hreturn]
    rw [toList_compactItems_cons, List.length_append, List.length_append] at hfuel
    rw [toList_compactItems_cons, depthItems, canonicalItems]
    -- the item, and behind it the others
    have hitem := (readValue_compact v hv fuel limit
      ((compactItems false items).toList ++ ([']'] ++ rest)) hlimit (.items items rest)
      (by omega)).bind (f := fun r => readItems fuel limit false (r.1 :: done) r.2)
      (readItems_compactItems items hitems fuel limit false (v.canonical :: done) rest hlimit
        (by rw [htext, List.length_cons] at hfuel; omega))
    rw [List.reverse_cons, List.append_assoc, List.singleton_append, htext] at hitem
    rw [htext, readItems]
    cases first with
    | true =>
      simp only [if_true, List.nil_append, List.cons_append, List.append_assoc,
        skipBlanks_cons hblank, hclose, if_false]
      exact hitem
    | false =>
      simp only [if_false, List.cons_append, List.append_assoc, List.nil_append, Bool.false_eq_true,
        skipBlanks_cons hblank, skipBlanks_cons (c := ',') (by decide), Char.reduceEq, if_true]
      exact hitem

theorem readFields_compactFields : ∀ (fields : List (String × Json)), IntegralFields fields →
    ∀ (fuel limit : Nat) (first : Bool) (done : List (String × Json)) (rest : List Char),
      0 < limit → 3 * (compactFields first fields).toList.length + 1 ≤ fuel →
        ReadsWithin limit (depthFields fields)
          (readFields fuel limit first done
            ((compactFields first fields).toList ++ (['\x7d'] ++ rest)))
          (.obj ((canonicalFields fields).foldl (fun done f => insertField f.1 f.2 done) done),
            rest)
  | [], _, fuel, limit, first, done, rest, hlimit, hfuel => by
    obtain ⟨fuel, rfl⟩ : ∃ k, fuel = k + 1 := ⟨fuel - 1, by omega⟩
    refine .plain hlimit ?_
    rw [canonicalFields, readFields]
    rfl
  | (k, v) :: fields, ⟨hv, hfields⟩, fuel, limit, first, done, rest, hlimit, hfuel => by
    rw [toList_compactFields_cons, List.length_append, List.length_append, List.length_cons,
      List.length_append] at hfuel
    have hquote : 1 ≤ (quote k).toList.length := by
      rw [toList_quote, List.length_cons]
      omega
    obtain ⟨fuel, rfl⟩ : ∃ k, fuel = k + 2 := ⟨fuel - 2, by omega⟩
    -- the value of the field, and behind it the other fields
    have hvalue := (readValue_compact v hv fuel limit
      ((compactFields false fields).toList ++ (['\x7d'] ++ rest)) hlimit (.fields fields rest)
      (by omega)).bind
      (f := fun r => readFields fuel limit false (insertField k r.1 done) r.2)
      (readFields_compactFields fields hfields fuel limit false (insertField k v.canonical done)
        rest hlimit (by omega))
    obtain ⟨cs, htext, hread⟩ := readString_quote k
      (':' :: (v.compact.toList ++ ((compactFields false fields).toList ++ (['\x7d'] ++ rest))))
    have hfield : readField (fuel + 1) limit done cs
        = (readValue fuel limit (v.compact.toList
            ++ ((compactFields false fields).toList ++ (['\x7d'] ++ rest)))
          >>= fun r => readFields fuel limit false (insertField k r.1 done) r.2) := by
      rw [readField]
      rw [hread]
      rfl
    rw [← hfield] at hvalue
    rw [toList_compactFields_cons, depthFields, canonicalFields, List.foldl_cons, readFields]
    simp only [List.append_assoc, List.cons_append] at htext ⊢
    cases first with
    | true =>
      rw [if_pos rfl, List.nil_append, htext, skipBlanks_cons (by decide)]
      exact hvalue
    | false =>
      rw [if_neg Bool.false_ne_true, List.singleton_append, htext, skipBlanks_cons (by decide)]
      exact hvalue

end

/-- **The text of a value is read exactly if the value is nested less deep than the limit**, with
the keys of its objects in order. Else its nesting is what is wrong with it. -/
theorem parseWithin_compact {v : Json} (hv : v.Integral) {limit : Nat} (hlimit : 0 < limit) :
    ReadsWithin limit v.depth (parseWithin limit v.compact.toList) v.canonical := by
  have hread := readValue_compact v hv (3 * v.compact.toList.length + 3) limit [] hlimit .nil
    (Nat.le_add_right _ _)
  rw [List.append_nil] at hread
  rw [← Nat.max_zero v.depth]
  -- nothing stands behind the value
  unfold parseWithin
  exact hread.bind (.plain hlimit rfl)

/-- **A text that is written for a value is one of this value**, however deep it is nested. -/
theorem isTextOf_compact {v : Json} (hv : v.Integral) : IsTextOf v.compact.toList v.canonical :=
  ⟨v.depth + 1, (parseWithin_compact hv (Nat.succ_pos _)).1 (Nat.lt_succ_self _)⟩

/-- As a rule a text is read if it is nested at most 127 deep. -/
theorem parse_compact {v : Json} (hv : v.Integral) :
    (v.depth ≤ 127 → parse v.compact = .ok v.canonical)
      ∧ (127 < v.depth → ∃ rest, parse v.compact = failAt .tooDeep rest) := by
  have hread := parseWithin_compact hv (by decide : 0 < depthLimit)
  exact ⟨fun h => hread.1 (Nat.lt_succ_of_le h), fun h => hread.2 (Nat.succ_le_of_lt h)⟩

end SymbolQuery.Json
