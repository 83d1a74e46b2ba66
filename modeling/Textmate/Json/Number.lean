import Textmate.Binary64

/-!
# Numbers of documents

A number written without fraction and exponent is whole when it fits into 64 bits, as an unsigned
or as a signed number; every other number is rounded to a binary floating-point number, and has no
value when it is too large for that.
-/

namespace Textmate.Json

/-- The value of a number. -/
inductive Number where
  /-- A whole number from `-2 ^ 63` to `2 ^ 64 - 1`. -/
  | whole (value : Int)
  /-- A number with a fraction, an exponent or too many digits. -/
  | fractional (value : Binary64)
  deriving Repr, DecidableEq

/-- Appends digits to a number as long as it stays below `2 ^ 64`. The second component counts the
digits that were left out: the first one that does not fit and all after it. -/
def appendDigits (value : Nat) : List Nat → Nat × Nat
  | [] => (value, 0)
  | d :: ds =>
    if value * 10 + d < UInt64.size then appendDigits (value * 10 + d) ds
    else (value, ds.length + 1)

def digitValues (cs : List Char) : List Nat :=
  cs.filterMap (Text.digitValue? 10)

/-- The parts of a number's text, without the marks between them. -/
structure NumberText where
  /-- Whether the text starts with a minus sign. -/
  negative : Bool
  whole : List Char
  /-- Digits after the point, if there is one. -/
  fraction : Option (List Char)
  /-- Sign and digits of the exponent, if there is one. -/
  exponent : Option (Bool × List Char)

/-- The value that the exponent of a number's text stands for. -/
def NumberText.power (text : NumberText) : Int :=
  match text.exponent with
  | none => 0
  | some (negative, digits) =>
    let value : Int := (Text.ofDigits? 10 digits).getD 0
    if negative then -value else value

/-- The value of a number's text. The digits form a number below `2 ^ 64`, from which digits that do
not fit are left out; it is rounded, and then multiplied by the power of ten that remains. -/
def NumberText.value? (text : NumberText) : Option Number :=
  let (whole, dropped) := appendDigits 0 (digitValues text.whole)
  -- Minus zero is no whole number, as it keeps its sign.
  if dropped = 0 ∧ text.fraction = none ∧ text.exponent = none ∧
      (text.negative = true → 0 < whole ∧ whole ≤ UInt64.size / 2) then
    some (.whole (if text.negative then -whole else whole))
  else
    let fraction := text.fraction.getD []
    let (significand, left) := appendDigits whole (digitValues fraction)
    let power : Int := text.power + dropped - (fraction.length - left : Nat)
    ((Magnitude.nearest? significand 1).bind (·.timesPower? power)).map fun magnitude =>
      .fractional ⟨text.negative, magnitude⟩

def Number.toText : Number → List Char
  | .whole value => (if value < 0 then ['-'] else []) ++ Text.toDigits 10 value.natAbs
  | .fractional value => value.toText

/-- The value of a whole number that is not negative and lies below a bound. -/
def Number.natural? (bound : Nat) : Number → Option Nat
  | .whole value => if 0 ≤ value ∧ value < bound then some value.toNat else none
  | .fractional _ => none

end Textmate.Json
