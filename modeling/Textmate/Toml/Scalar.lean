import Textmate.Binary64
import Textmate.Text.Split
import Textmate.Toml.Value

/-!
# Numbers, dates and words of TOML

A value that is no string, array or table is a word: a truth value, a whole number of 64 bits with
its sign, a number with a fraction or an exponent, a date, a time, or a date with a time.
Underscores may stand between two digits of a number.
-/

namespace Textmate.Toml

def isWordChar (c : Char) : Bool :=
  c.isAlphanum || ['+', '-', '.', ':', '_'].contains c

/-- The digits of a text in a base, without the underscores between them. -/
def digits? (base : Nat) (cs : List Char) : Option (List Char) :=
  let groups := Text.split '_' cs
  -- An underscore with a digit on both sides leaves no empty group.
  if groups.all fun group => !group.isEmpty && group.all fun c => (Text.digitValue? base c).isSome
  then some groups.flatten
  else none

/-- The value of a text of digits in a base, with underscores between them. -/
def number? (base : Nat) (cs : List Char) : Option Nat :=
  (digits? base cs).bind (Text.ofDigits? base)

/-- The sign in front of a number, and what follows it. -/
def sign : List Char → Bool × List Char
  | '-' :: cs => (true, cs)
  | '+' :: cs => (false, cs)
  | cs => (false, cs)

/-- The digits of a decimal number that does not start with a needless zero. -/
def decimalDigits? (cs : List Char) : Option (List Char) :=
  match cs with
  -- A zero may only stand alone.
  | '0' :: _ :: _ => none
  | cs => digits? 10 cs

/-- The number of whole numbers of 64 bits that are not negative; there are as many negative
ones. -/
def integerBound : Nat := UInt64.size / 2

/-- A whole number of 64 bits. Only decimal numbers have a sign. -/
def integer? (word : List Char) : Option Int :=
  let positive (n : Option Nat) : Option Int := (n.filter (· < integerBound)).map Int.ofNat
  match word with
  -- The prefix tells the base.
  | '0' :: 'x' :: cs => positive (number? 16 cs)
  | '0' :: 'o' :: cs => positive (number? 8 cs)
  | '0' :: 'b' :: cs => positive (number? 2 cs)
  | word =>
    let (isNegative, cs) := sign word
    let value := (decimalDigits? cs).bind (Text.ofDigits? 10)
    -- There is one negative number more than there are positive ones.
    if isNegative then (value.filter (· ≤ integerBound)).map fun n => -(n : Int) else positive value

/-- Whether `significand * 10 ^ exponent` is rounded to infinity as a number of 64 bits. Numbers far
from the greatest one are told apart by their lengths. -/
def isTooLarge (significand : Nat) (exponent : Int) : Bool :=
  let length := (Text.toDigits 10 significand).length
  if significand = 0 ∨ length + exponent < 300 then false
  else if length + exponent > 310 then true
  else
    let (num, den) := Magnitude.scaled 10 significand 1 (-exponent)
    (Magnitude.nearest? num den).isNone

/-- The digits and the power of ten of a number with a fraction, an exponent, or both. -/
def scientific? (cs : List Char) : Option (Nat × Int) := do
  let mantissa := cs.takeWhile fun c => c ≠ 'e' ∧ c ≠ 'E'
  let exponent ← match cs.drop mantissa.length with
    | [] => pure 0
    | _ :: cs =>
      let (isNegative, cs) := sign cs
      (number? 10 cs).map fun (n : Nat) => if isNegative then -(n : Int) else n
  let (whole, fraction) ← match Text.splitOnce '.' mantissa with
    | some (whole, fraction) => (digits? 10 fraction).map (whole, ·)
    -- Without a fraction there has to be an exponent.
    | none => if mantissa.length < cs.length then some (mantissa, []) else none
  let digits := (← decimalDigits? whole) ++ fraction
  -- The digits of the fraction are counted to the whole, with a smaller power.
  pure (← Text.ofDigits? 10 digits, exponent - fraction.length)

/-- Whether a word is a number with a fraction or an exponent, an infinity or no number. A number
above all others is an error, while one below all others counts as an infinity. -/
def isFloat (word : List Char) : Bool :=
  let (isNegative, cs) := sign word
  cs = "inf".toList || cs = "nan".toList ||
    (scientific? cs).any fun (significand, exponent) =>
      isNegative || !isTooLarge significand exponent

/-- Reads a number of two digits within bounds, and what follows it. -/
def twoDigits? (low high : Nat) : List Char → Option (Nat × List Char)
  | a :: b :: cs => do
    let n ← Text.ofDigits? 10 [a, b]
    if low ≤ n ∧ n ≤ high then pure (n, cs) else none
  | _ => none

/-- The number of days of a month. -/
def daysIn (year month : Nat) : Nat :=
  if month = 2 then if year % 4 = 0 ∧ (year % 100 ≠ 0 ∨ year % 400 = 0) then 29 else 28
  else if [4, 6, 9, 11].contains month then 30
  else 31

/-- Reads a date at the start of a text: what follows it. -/
def afterDate? : List Char → Option (List Char)
  | a :: b :: c :: d :: '-' :: cs => do
    let year ← Text.ofDigits? 10 [a, b, c, d]
    let (month, cs) ← twoDigits? 1 12 cs
    let (_, cs) ← twoDigits? 1 (daysIn year month) (← Text.afterStart? ['-'] cs)
    pure cs
  | _ => none

/-- Reads hours and minutes at the start of a text: what follows them. -/
def afterMinutes? (cs : List Char) : Option (List Char) := do
  let (_, cs) ← twoDigits? 0 23 cs
  let (_, cs) ← twoDigits? 0 59 (← Text.afterStart? [':'] cs)
  pure cs

/-- Reads a time of a day at the start of a text: what follows it. A minute may have a leap
second. -/
def afterTime? (cs : List Char) : Option (List Char) := do
  -- The sixtieth second is a leap second.
  let (_, cs) ← twoDigits? 0 60 (← Text.afterStart? [':'] (← afterMinutes? cs))
  match cs with
  | '.' :: cs =>
    let rest := cs.dropWhile Char.isDigit
    -- A point has to have a digit behind it.
    if rest.length < cs.length then pure rest else none
  | cs => pure cs

/-- Whether a text is the offset of a time, or empty. -/
def isOffset : List Char → Bool
  | [] => true
  | ['Z'] => true
  | ['z'] => true
  | '+' :: cs => afterMinutes? cs = some []
  | '-' :: cs => afterMinutes? cs = some []
  | _ => false

/-- Whether a word is a date, a time, or both. -/
def isDateTime (word : List Char) : Bool :=
  match afterDate? word with
  | some [] => true
  | some (c :: cs) => (c = 'T' || c = 't' || c = ' ') && (afterTime? cs).any isOffset
  | none => afterTime? word = some []

/-- The value of a word. -/
def Value.ofWord? (word : List Char) : Option Value :=
  if word = "true".toList then some (.boolean true)
  else if word = "false".toList then some (.boolean false)
  -- What is a whole number is neither a float nor a date.
  else match integer? word with
    | some n => some (.integer n)
    | none =>
      if isFloat word then some (.float (String.ofList word))
      else if isDateTime word then some (.dateTime (String.ofList word))
      else none

/-- Reads a word at the start of a text. The time behind a date may stand after a space. -/
def word? (cs : List Char) : Option (Value × List Char) :=
  let first := cs.takeWhile isWordChar
  let word := match afterDate? first, cs.drop first.length with
    | some [], ' ' :: rest =>
      if rest.head?.any Char.isDigit then first ++ ' ' :: rest.takeWhile isWordChar else first
    | _, _ => first
  (Value.ofWord? word).map (·, cs.drop word.length)

end Textmate.Toml
