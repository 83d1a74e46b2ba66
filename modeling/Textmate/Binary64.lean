import Textmate.Text.Digits

/-!
# Binary floating-point numbers of 64 bits

A finite number is a sign and a magnitude `mantissa · 2 ^ exponent`. Ratios of natural numbers are
rounded to the nearest magnitude, a tie to the even mantissa, in exact arithmetic. The decimal text
of a magnitude has the fewest digits that read back as the magnitude, and of those the nearest.
-/

namespace Textmate

/-- An unsigned number: `mantissa · 2 ^ exponent`. -/
structure Magnitude where
  /-- Below `2 ^ 53`. -/
  mantissa : Nat
  /-- From `-1074`, the exponent of the smallest numbers, to `971`. -/
  exponent : Int
  deriving Repr, DecidableEq

/-- A finite number with a sign, which zero has too. -/
structure Binary64 where
  /-- Whether a minus sign stands before the number. -/
  negative : Bool
  magnitude : Magnitude
  deriving Repr, DecidableEq

namespace Magnitude

def zero : Magnitude := ⟨0, -1074⟩

/-- The least mantissa of 53 bits. Numbers have mantissas of 53 bits as far as the exponent
allows. -/
def leastNormal : Nat := 4503599627370496

/-- The quotient rounded to the nearest natural number, a tie to the even one. -/
def roundDiv (num den : Nat) : Nat :=
  let q := num / den
  let r := num % den
  if 2 * r < den then q else if den < 2 * r then q + 1 else q + q % 2

/-- Numerator and denominator of `num / den / base ^ power`. -/
def scaled (base num den : Nat) (power : Int) : Nat × Nat :=
  if 0 ≤ power then (num, den * base.pow power.toNat) else (num * base.pow (-power).toNat, den)

/-- The greatest power of two that is at most a positive ratio. -/
def log2Ratio (num den : Nat) : Int :=
  let guess : Int := (num.log2 : Int) - den.log2
  let (n, d) := scaled 2 num den guess
  if d ≤ n then guess else guess - 1

/-- The magnitude nearest to a ratio, or nothing when it is too large. -/
def nearest? (num den : Nat) : Option Magnitude :=
  if num = 0 then some zero
  else
    -- The exponent leaves 53 bits to the mantissa, or fewer near zero.
    let exponent := max (-1074) (log2Ratio num den - 52)
    let (n, d) := scaled 2 num den exponent
    let mantissa := roundDiv n d
    let rounded : Magnitude :=
      if mantissa = 2 * leastNormal then ⟨leastNormal, exponent + 1⟩ else ⟨mantissa, exponent⟩
    -- Rounding up may have made the mantissa one bit longer, and the number too large.
    if rounded.exponent ≤ 971 then some rounded else none

def ratio (x : Magnitude) : Nat × Nat :=
  scaled 2 x.mantissa 1 (-x.exponent)

def mul? (x y : Magnitude) : Option Magnitude :=
  nearest? (x.ratio.1 * y.ratio.1) (x.ratio.2 * y.ratio.2)

/-- The rounded quotient by a number other than zero. -/
def div? (x y : Magnitude) : Option Magnitude :=
  nearest? (x.ratio.1 * y.ratio.2) (x.ratio.2 * y.ratio.1)

/-- The magnitude nearest to a power of ten. -/
def power? (exponent : Nat) : Option Magnitude :=
  nearest? (Nat.pow 10 exponent) 1

/-- The greatest exponent of a power of ten that has a magnitude. -/
def maxPower : Nat := 308

/-- Divides by the greatest power of ten again and again; zero stays zero. -/
def divSteps? : Nat → Magnitude → Option Magnitude
  | 0, x => some x
  | steps + 1, x =>
    if x.mantissa = 0 then some zero
    else ((power? maxPower).bind x.div?).bind (divSteps? steps)

/-- A magnitude times a power of ten. The power is rounded before the product or the quotient is;
below the smallest power the quotient is taken in several steps, each of them rounded. -/
def timesPower? (x : Magnitude) (power : Int) : Option Magnitude :=
  if x.mantissa = 0 then some zero
  else if 0 ≤ power then
    if power ≤ maxPower then (power? power.toNat).bind x.mul? else none
  else
    -- All steps but the last one divide by the greatest power there is.
    let size := power.natAbs
    let steps := (size - 1) / maxPower
    (x.divSteps? steps).bind fun y => (power? (size - steps * maxPower)).bind y.div?

/-- The number of decimal digits before the point of a positive ratio; of a ratio below one, minus
the number of zeros after the point. -/
def pointPosition (num den : Nat) : Int :=
  if den ≤ num then (Text.toDigits 10 (num / den)).length
  else -(((List.range 400).find? fun zeros => den ≤ num * Nat.pow 10 (zeros + 1)).getD 0 : Nat)

/-- The multiple of `10 ^ power` nearest to the magnitude, as a factor, if a multiple reads back as
the magnitude. The numbers that read back lie between the midpoints to the two neighbours, which
themselves read back when the mantissa is even. -/
def multiple? (x : Magnitude) (power : Int) : Option Nat :=
  -- Below a power of two the neighbour is only half as far away.
  let below := if x.mantissa = leastNormal ∧ -1074 < x.exponent then 1 else 2
  let at_ (quarters : Nat) : Nat × Nat :=
    let (n, d) := scaled 2 quarters 1 (2 - x.exponent)
    scaled 10 n d power
  let (low, _) := at_ (4 * x.mantissa - below)
  let (value, unit) := at_ (4 * x.mantissa)
  let (high, _) := at_ (4 * x.mantissa + 2)
  let readsBack (k : Nat) : Bool :=
    if x.mantissa % 2 = 0 then low ≤ k * unit && k * unit ≤ high
    else low < k * unit && k * unit < high
  let floor := value / unit
  let first := roundDiv value unit
  -- If the nearest multiple does not read back, the one on the other side may.
  let second := if first = floor then floor + 1 else floor
  if readsBack first then some first else if readsBack second then some second else none

/-- The fewest decimal digits that read back as a positive magnitude, with the power of ten by which
the number they form is multiplied. -/
def shortest (x : Magnitude) : List Char × Int :=
  let position := pointPosition x.ratio.1 x.ratio.2
  let found := (List.range 17).findSome? fun (count : Nat) =>
    let power := position - 1 - count
    (x.multiple? power).map fun k => (Text.toDigits 10 k, power)
  found.getD (Text.toDigits 10 (x.ratio.1 / x.ratio.2), 0)

/-- The text of a magnitude: positional up to sixteen digits before the point and up to four zeros
after it, with an exponent otherwise; a digit always stands after a point without exponent. -/
def toText (x : Magnitude) : List Char :=
  if x.mantissa = 0 then ['0', '.', '0']
  else
    let (digits, power) := x.shortest
    let position : Int := digits.length + power
    let exponent := position - 1
    let exponentText :=
      'e' :: (if exponent < 0 then ['-'] else []) ++ Text.toDigits 10 exponent.natAbs
    -- Digits only before the point, around it, only after it, and with an exponent.
    if 0 ≤ power ∧ position ≤ 16 then digits ++ List.replicate power.toNat '0' ++ ['.', '0']
    else if 0 < position ∧ position ≤ 16 then
      digits.take position.toNat ++ '.' :: digits.drop position.toNat
    else if -5 < position ∧ position ≤ 0 then
      '0' :: '.' :: List.replicate position.natAbs '0' ++ digits
    else match digits with
      | [] => []
      | [digit] => digit :: exponentText
      | digit :: rest => digit :: '.' :: rest ++ exponentText

end Magnitude

def Binary64.toText (x : Binary64) : List Char :=
  (if x.negative then ['-'] else []) ++ x.magnitude.toText

end Textmate
