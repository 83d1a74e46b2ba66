import Textmate.Metadata.Word

/-!
# Reading metadata words

A metadata word is read from its number: decimal digits, hexadecimal digits after `0x` or binary
digits after `0b`. White space around the number and underscores in it do not count.
-/

namespace Textmate.Metadata

/-- The base in which a number is written, and its digits. -/
def baseAndDigits : List Char → Nat × List Char
  | '0' :: 'x' :: digits => (16, digits)
  | '0' :: 'b' :: digits => (2, digits)
  | digits => (10, digits)

def read (text : String) : Except Text.NumberProblem Metadata :=
  let (base, digits) := baseAndDigits ((Text.trim text.toList).filter (· ≠ '_'))
  (Text.readNumber base UInt32.size digits).map fun n => ⟨UInt32.ofNat n⟩

end Textmate.Metadata
