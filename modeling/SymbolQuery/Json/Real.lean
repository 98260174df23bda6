/-
Double-precision numbers in JSON text.

Reading takes the digits as one integer of at most 64 bits and a power of ten, and
scales in double precision. Writing gives the fewest digits that still read back as
the same number, of those the nearest; they are found in exact integer arithmetic
between the two midpoints that bound the numbers rounding to it. `layout` then
decides between positional and exponent form.
-/
set_option autoImplicit false

namespace SymbolQuery.Json.Real

/-! ## From digits to a number -/

/-- The power of ten with the given exponent, rounded to double precision. -/
def tenTo (exponent : Nat) : Float := Float.ofScientific 1 false exponent

/-- Divides by powers of ten until the exponent is used up. -/
def scaleDown : Nat → Float → Nat → Float
  | 0, f, _ => f
  | fuel + 1, f, exponent =>
    if exponent ≤ 308 then f / tenTo exponent
    else if f == 0 then f
    else scaleDown fuel (f / tenTo 308) (exponent - 308)

/-- The number `significand · 10 ^ exponent`, or `none` if it is too large. -/
def ofParts (negative : Bool) (significand : Nat) (exponent : Int) : Option UInt64 :=
  let f := significand.toUInt64.toFloat
  let scaled :=
    if exponent < 0 then some (scaleDown (exponent.natAbs + 1) f exponent.natAbs)
    else if exponent ≤ 308 then
      let g := f * tenTo exponent.toNat
      if g.isInf then none else some g
    else if f == 0 then some f
    else none
  scaled.map fun g => (if negative then -g else g).toBits

/-! ## The shortest digits -/

/-- The weight of the bit above the 52 bits of the fraction. -/
def fractionSize : Nat := 4503599627370496

/-- The weight of the sign bit. -/
def signWeight : Nat := 9223372036854775808

/-- A finite positive number as `mantissa · 2 ^ exponent`. -/
structure Binary where
  mantissa : Nat
  exponent : Int

/-- The parts of a number, its sign aside. -/
def binary (bits : UInt64) : Binary :=
  let fraction : Nat := bits.toNat % fractionSize
  let biased : Nat := bits.toNat / fractionSize % 2048
  if biased = 0 then ⟨fraction, -1074⟩ else ⟨fractionSize + fraction, (biased : Int) - 1075⟩

/-- The powers of two and ten that make `mantissa · 2 ^ exponent / 10 ^ scale` a quotient of
integers: numerator factor, denominator factor. -/
def factors (exponent scale : Int) : Nat × Nat :=
  (Nat.pow 2 exponent.toNat * Nat.pow 10 (-scale).toNat,
    Nat.pow 2 (-exponent).toNat * Nat.pow 10 scale.toNat)

/-- The number of decimal digits of an integer. -/
def digitCount (n : Nat) : Nat := (Nat.toDigits 10 n).length

/-- The two neighbours of `b` on the grid of multiples of `10 ^ scale` that still round to it,
as multiples; the nearer one first. All is compared over the denominator `4 · den`. -/
def onGrid (b : Binary) (scale : Int) : Option Nat :=
  let (up, den) := factors b.exponent scale
  let value := 4 * b.mantissa * up
  let high := (4 * b.mantissa + 2) * up
  let low :=
    (4 * b.mantissa - (if b.mantissa = fractionSize ∧ b.exponent ≠ -1074 then 1 else 2)) * up
  let even := b.mantissa % 2 == 0
  let fits (n : Nat) : Bool :=
    let x := n * (4 * den)
    if even then low ≤ x && x ≤ high else low < x && x < high
  let below := value / (4 * den)
  let above := below + 1
  match fits below, fits above with
  | false, false => none
  | true, false => some below
  | false, true => some above
  | true, true =>
    let toBelow := value - below * (4 * den)
    let toAbove := above * (4 * den) - value
    if toBelow < toAbove then some below
    else if toAbove < toBelow then some above
    else some (if below % 2 == 0 then below else above)

/-- A decimal exponent `k` with `10 ^ (k - 1) ≤ mantissa · 2 ^ exponent`, or one more. -/
def magnitude (b : Binary) : Int :=
  if 0 ≤ b.exponent then digitCount (b.mantissa * Nat.pow 2 b.exponent.toNat)
  else
    let down := (-b.exponent).toNat
    let whole := b.mantissa / Nat.pow 2 down
    if whole ≠ 0 then digitCount whole
    else (digitCount (b.mantissa * Nat.pow 10 down / Nat.pow 2 down) : Int) - down

/-- Tries grids with more and more digits; 18 always suffice. -/
def shortestFrom (b : Binary) (top : Int) : Nat → Nat → Nat × Int
  | 0, _ => (b.mantissa, 0)
  | fuel + 1, count =>
    let scale := top - count
    match onGrid b scale with
    | some n => if n = 0 then shortestFrom b top fuel (count + 1) else (n, scale)
    | none => shortestFrom b top fuel (count + 1)

/-- Moves the zeros at the end of the digits into the exponent. -/
def dropZeros : Nat → Nat → Int → Nat × Int
  | 0, n, e => (n, e)
  | fuel + 1, n, e => if n ≠ 0 ∧ n % 10 = 0 then dropZeros fuel (n / 10) (e + 1) else (n, e)

/-- The shortest decimal `n · 10 ^ e` that reads back as the positive number `b`. -/
def shortest (b : Binary) : Nat × Int :=
  let (n, e) := shortestFrom b (magnitude b) 20 1
  dropZeros 400 n e

/-! ## Layout -/

/-- The digits `n · 10 ^ e` in text: positional up to sixteen places before and five zeros after
the point, with an exponent beyond. -/
def layout (n : Nat) (e : Int) : String :=
  let digits := Nat.toDigits 10 n
  let count := digits.length
  let point := (count : Int) + e
  let zeros (k : Int) : List Char := List.replicate k.toNat '0'
  String.ofList <|
    if 0 ≤ e ∧ point ≤ 16 then digits ++ zeros e ++ ['.', '0']
    else if 0 < point ∧ point ≤ 16 then
      digits.take point.toNat ++ ['.'] ++ digits.drop point.toNat
    else if -5 < point ∧ point ≤ 0 then ['0', '.'] ++ zeros (-point) ++ digits
    else
      let tail := 'e' :: (toString (point - 1)).toList
      match digits with
      | [d] => d :: tail
      | d :: more => d :: '.' :: more ++ tail
      | [] => tail

/-- The text of a number; null stands for one that is not finite. -/
def text (bits : UInt64) : String :=
  let sign := if bits.toNat / signWeight = 1 then "-" else ""
  if bits.toNat / fractionSize % 2048 = 2047 then "null"
  else if bits.toNat % signWeight = 0 then sign ++ "0.0"
  else
    let (n, e) := shortest (binary bits)
    sign ++ layout n e

end SymbolQuery.Json.Real
