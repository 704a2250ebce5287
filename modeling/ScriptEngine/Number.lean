/-!
# Numbers

Integers are words of 64 bits, and floats are binary fractions of 64 bits.
-/

/-!
## Integers of 64 bits

Integer arithmetic is exact or refused: an operation is carried out on the integers, and its result
is accepted when it fits into 64 bits.
-/

namespace ScriptEngine.Number

/-- Whether `n` fits into 64 bits with a sign. -/
def fits (n : Int) : Bool := -9223372036854775808 ≤ n && n ≤ 9223372036854775807

/-- The 64-bit integer equal to `n`, if there is one. -/
def word? (n : Int) : Option Int64 :=
  if fits n then some (Int64.ofInt n) else none

/-- `n`, if it fits into the given number of bits without a sign. -/
def unsigned? (bits n : Nat) : Option Nat := if n < 1 <<< bits then some n else none

/-- `a · 2 ^ n`, for a count of any size. A zero stays zero, and any other integer shifted by 64 or
more does not fit. Up to there, the product fits if shifting it back gives `a` again. -/
def shiftLeft? (a : Int64) (n : Nat) : Option Int64 :=
  if a = 0 then some 0
  else if 64 ≤ n then none
  else
    let shifted := a <<< Int64.ofNat n
    if shifted >>> Int64.ofNat n = a then some shifted else none

/-- The floor of `a / 2 ^ n`, for a count of any size: beyond 63 only the sign is left. -/
def shiftRight (a : Int64) (n : Nat) : Int64 :=
  if 64 ≤ n then (if a < 0 then -1 else 0) else a >>> Int64.ofNat n

/-- An accepted result is the exact one. -/
theorem toInt_of_word? {n : Int} {w : Int64} (h : word? n = some w) : w.toInt = n := by
  unfold word? fits at h
  split at h
  · rename_i hn
    cases h
    simp only [Bool.and_eq_true, decide_eq_true_eq] at hn
    rw [Int64.toInt_ofInt, Int.bmod_eq_of_le] <;> simp [Int64.size] <;> omega
  · cases h

/-!
## The numbers that floats stand for

A finite float is a signed `mantissa · 2 ^ exponent` with a natural mantissa. Taking a float apart
into that form, and putting it together again, makes exact arithmetic on it possible; the remainder
of a division is computed so.
-/

/-- What a float stands for. -/
inductive Binary64 where
  | nan
  | infinite (negative : Bool)
  | finite (negative : Bool) (mantissa : Nat) (exponent : Int)
deriving DecidableEq, Repr

namespace Binary64

/-- The exponent of the smallest positive float. -/
def leastExponent : Int := -1074

/-- The bit above the fraction, `2 ^ 52`: the mantissas of normal floats begin with it. -/
def hiddenBit : Nat := 0x10000000000000

/-- The number that `x` stands for: a subnormal has its fraction as mantissa, a normal float also
its hidden bit. -/
def ofFloat (x : Float) : Binary64 :=
  let bits := x.toBits.toNat
  let negative := bits >>> 63 == 1
  let field := bits / hiddenBit % 2048
  let fraction := bits % hiddenBit
  if field = 2047 then (if fraction = 0 then .infinite negative else .nan)
  else if field = 0 then .finite negative fraction leastExponent
  else .finite negative (hiddenBit + fraction) (Int.ofNat field + leastExponent - 1)

/-- The bits, without the sign, of `mantissa · 2 ^ exponent`, which has to be a float: the mantissa
is moved up to its full width as far as the exponent allows. -/
def magnitudeBits (mantissa : Nat) (exponent : Int) : Nat :=
  let shift := min (52 - Nat.log2 mantissa) (exponent - leastExponent).toNat
  let full := mantissa <<< shift
  if full < hiddenBit then full
  else ((exponent - leastExponent).toNat - shift + 1) * hiddenBit + (full - hiddenBit)

/-- The float that stands for a number. A finite one has to be representable. -/
def toFloat : Binary64 → Float
  | .nan => Float.ofBits 0x7FF8000000000000
  | .infinite negative => signed negative (2047 * hiddenBit)
  | .finite negative mantissa exponent => signed negative (magnitudeBits mantissa exponent)
where
  /-- The sign bit and the bits below it. -/
  signed (negative : Bool) (bits : Nat) : Float :=
    Float.ofBits (UInt64.ofNat (if negative then 0x8000000000000000 + bits else bits))

/-- The remainder of a division that rounds toward zero; it has the sign of the dividend. Both
numbers are brought to the smaller exponent, so the remainder is that of two natural numbers. -/
def rem : Binary64 → Binary64 → Binary64
  | .nan, _ => .nan
  | _, .nan => .nan
  | .infinite _, _ => .nan
  | dividend, .infinite _ => dividend
  | .finite negative m e, .finite _ n f =>
    if n = 0 then .nan
    else
      let exponent := min e f
      let dividend := m <<< (e - exponent).toNat
      let divisor := n <<< (f - exponent).toNat
      .finite negative (dividend % divisor) exponent

end Binary64

/-- The remainder of `x / y` with the quotient rounded toward zero. -/
def remainder (x y : Float) : Float :=
  ((Binary64.ofFloat x).rem (Binary64.ofFloat y)).toFloat

/-!
## Shortest decimals

The reals that round to a float `m · 2 ^ q` form an interval around it. Of the decimals in that
interval, the shortest are those with the fewest digits, and of these the one nearest to the float is
taken; of two equally near the larger. It is found on the decimal grids with one digit, two digits
and so on: if a grid has a point in the interval, then one of the float's two neighbours on that grid
is in it.
-/

/-- A positive decimal `digits · 10 ^ exponent`. -/
structure Decimal where
  digits : Nat
  exponent : Int
deriving DecidableEq, Repr

namespace Decimal

/-- The number of digits of `n`, one for zero. -/
def width (n : Nat) : Nat := (Nat.toDigits 10 n).length

/-- The same decimal without zeros at the end of its digits; `fuel` bounds their number. -/
def strip : Nat → Decimal → Decimal
  | 0, d => d
  | fuel + 1, d =>
    if d.digits % 10 = 0 then strip fuel ⟨d.digits / 10, d.exponent + 1⟩ else d

/-- A power with an integer exponent as the numerator and denominator of a fraction. -/
def fraction (base : Nat) (exponent : Int) : Nat × Nat :=
  (Nat.pow base exponent.toNat, Nat.pow base (-exponent).toNat)

/-- The reals that round to `m · 2 ^ q`, in quarters of `2 ^ q`: lower end, value and upper end. Below
a power of two the floats lie twice as close, except at the smallest exponent. -/
def interval (m : Nat) (q : Int) (least : Int) : Nat × Nat × Nat :=
  (if m = Binary64.hiddenBit ∧ least < q then 4 * m - 1 else 4 * m - 2, 4 * m, 4 * m + 2)

/-- The decimal exponent of the leading digit of `m · 2 ^ q`. -/
def leading (m : Nat) (q : Int) : Int :=
  let (up, down) := fraction 2 q
  Int.ofNat (width (m * Nat.pow 10 400 * up / down)) - 401

/-- The neighbour of `m · 2 ^ q` on the grid of multiples of `10 ^ exponent` that lies in the interval
of `m · 2 ^ q` and is nearer to it. The ends belong to the interval when `m` is even. -/
def onGrid (m : Nat) (q : Int) (least : Int) (exponent : Int) : Option Decimal :=
  let (lower, value, upper) := interval m q least
  let (up, down) := fraction 2 (q - 2)
  let (ten, unit) := fraction 10 exponent
  let scale := up * unit
  let grid := down * ten
  let inside (n : Nat) : Bool :=
    if m % 2 = 0 then lower * scale ≤ n * grid && n * grid ≤ upper * scale
    else lower * scale < n * grid && n * grid < upper * scale
  let below := value * scale / grid
  let above := below + 1
  let nearerBelow := value * scale - below * grid < above * grid - value * scale
  if inside below && (nearerBelow || !inside above) then some ⟨below, exponent⟩
  else if inside above then some ⟨above, exponent⟩
  else none

/-- The shortest decimal that rounds to the positive float `m · 2 ^ q`, whose least exponent is
`least`. Seventeen digits always suffice. -/
def shortest (m : Nat) (q : Int) (least : Int) : Decimal :=
  let top := leading m q
  let found := (List.range 17).findSome? fun n => onGrid m q least (top - Int.ofNat n)
  strip 17 (found.getD ⟨m, 0⟩)

end Decimal

/-!
## Floats as text

A float is written with the fewest digits that read back as it. From a ten-thousandth up to below
`10 ^ 16` the notation is positional with at least one digit after the point; all other magnitudes
have an exponent.
-/

/-- `n` zeros. -/
def zeros (n : Nat) : List Char := List.replicate n '0'

/-- Digits with the point after the first `point` of them, with at least one digit on each side. -/
def positional (digits : List Char) (point : Int) : List Char :=
  if point ≤ 0 then ['0', '.'] ++ zeros (-point).toNat ++ digits
  else if digits.length ≤ point.toNat then digits ++ zeros (point.toNat - digits.length) ++ ['.', '0']
  else digits.take point.toNat ++ '.' :: digits.drop point.toNat

/-- One digit, the others after a point if there are any, and the exponent. -/
def exponential (digits : List Char) (point : Int) : List Char :=
  let rest := digits.drop 1
  digits.take 1 ++ (if rest = [] then [] else '.' :: rest) ++ 'e' :: (toString (point - 1)).toList

/-- Positional notation holds the point at most three places before the digits and at most sixteen
after their start. -/
def Decimal.chars (d : Decimal) : List Char :=
  let digits := Nat.toDigits 10 d.digits
  let point := d.exponent + Int.ofNat digits.length
  if -3 ≤ point ∧ point ≤ 16 then positional digits point else exponential digits point

/-- The text of a float. -/
def floatText (x : Float) : String :=
  match Binary64.ofFloat x with
  | .nan => "NaN"
  | .infinite negative => if negative then "-inf" else "inf"
  | .finite negative m q =>
    let magnitude :=
      if m = 0 then ['0', '.', '0'] else (Decimal.shortest m q Binary64.leastExponent).chars
    String.ofList (if negative then '-' :: magnitude else magnitude)

/-- The number that decimal digits spell. -/
def ofDigits (digits : List Char) : Nat :=
  digits.foldl (fun n c => 10 * n + (c.toNat - '0'.toNat)) 0

/-- The float nearest to `mantissa · 10 ^ exponent`. Magnitudes far beyond the range of floats are
decided by their size alone. -/
def ofDecimal (mantissa : Nat) (exponent : Int) : Float :=
  let size := exponent + Int.ofNat (Decimal.width mantissa)
  if mantissa = 0 ∨ size < -400 then 0.0
  else if 400 < size then (Binary64.infinite false).toFloat
  else Float.ofScientific mantissa (decide (exponent < 0)) exponent.natAbs

/-- The float that digits with a point between them spell: `whole.fraction`. -/
def ofPoint (whole fraction : List Char) : Float :=
  ofDecimal (ofDigits (whole ++ fraction)) (-Int.ofNat fraction.length)

end ScriptEngine.Number
