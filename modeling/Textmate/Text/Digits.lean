/-!
# Numbers in positional notation

Writing a natural number in a base, and reading one that has to stay below a bound. Letters stand
for the digits from ten on; they are written in lower case and read in either case.

Main statement: written digits have the value they were written for (`ofDigits?_toDigits`).
-/

namespace Textmate.Text

def digitChar (d : Nat) : Char :=
  if d < 10 then Char.ofNat (0x30 + d) else Char.ofNat (0x61 + (d - 10))

/-- The value of a digit character, if it is one in the base. -/
def digitValue? (base : Nat) (c : Char) : Option Nat :=
  let n := c.toNat
  let value :=
    if 0x30 ≤ n ∧ n ≤ 0x39 then n - 0x30
    else if 0x61 ≤ n ∧ n ≤ 0x7A then n - 0x61 + 10
    else if 0x41 ≤ n ∧ n ≤ 0x5A then n - 0x41 + 10
    -- Other characters get a value that is out of range.
    else base
  if value < base then some value else none

/-- The digits of a number in a base of at least two, without leading zeros; zero is one digit. -/
def toDigits (base n : Nat) : List Char :=
  if base ≤ 1 ∨ n < base then [digitChar n]
  else toDigits base (n / base) ++ [digitChar (n % base)]
termination_by n
decreasing_by exact Nat.div_lt_self (by omega) (by omega)

/-- The digits of a number, filled up with zeros to a width. -/
def toPadded (base width n : Nat) : List Char :=
  let digits := toDigits base n
  List.replicate (width - digits.length) '0' ++ digits

/-- The value of a list of characters all of which are digits in the base. -/
def ofDigits? (base : Nat) (cs : List Char) : Option Nat :=
  cs.foldlM (fun value c => (digitValue? base c).map (value * base + ·)) 0

def decimal (n : Nat) : String :=
  String.ofList (toDigits 10 n)

/-- Why a text is no number below the bound. -/
inductive NumberProblem where
  | empty
  /-- A character is no digit of the base, or there is a sign without digits. -/
  | invalidDigit
  | tooLarge
  deriving Repr, DecidableEq

/-- The wording of the problem. -/
def NumberProblem.message : NumberProblem → String
  | .empty => "cannot parse integer from empty string"
  | .invalidDigit => "invalid digit found in string"
  | .tooLarge => "number too large to fit in target type"

/-- Reads the digits from the left and stops at the first problem, so that of a digit that is out of
range and a character that is no digit the earlier one counts. -/
def readDigits (base bound : Nat) (value : Nat) : List Char → Except NumberProblem Nat
  | [] => .ok value
  | c :: cs =>
    match digitValue? base c with
    | none => .error .invalidDigit
    | some d =>
      -- The bound is checked digit by digit.
      if value * base + d < bound then readDigits base bound (value * base + d) cs
      else .error .tooLarge

/-- Reads a number below the bound; a plus sign may stand before the digits. -/
def readNumber (base bound : Nat) : List Char → Except NumberProblem Nat
  | [] => .error .empty
  -- A sign alone is not an empty text.
  | ['+'] => .error .invalidDigit
  | '+' :: cs => readDigits base bound 0 cs
  | cs => readDigits base bound 0 cs

/-- Further digits go on from the value so far. -/
theorem ofDigits?_append (base : Nat) (cs ds : List Char) :
    ofDigits? base (cs ++ ds) =
      (ofDigits? base cs).bind fun value =>
        ds.foldlM (fun value c => (digitValue? base c).map (value * base + ·)) value := by
  simp [ofDigits?, List.foldlM_append]

/-- A digit character of a base up to 36 has the digit's value. -/
theorem digitValue?_digitChar {base d : Nat} (hbase : base ≤ 36) (h : d < base) :
    digitValue? base (digitChar d) = some d := by
  -- Digits are numerals up to nine, and small letters from ten on.
  have hall : ∀ e ∈ List.range 36, (digitChar e).toNat = if e < 10 then 0x30 + e else 0x57 + e := by
    decide
  have hd := hall d (List.mem_range.2 (by omega))
  unfold digitValue?
  rw [hd]
  by_cases h10 : d < 10
  · have h1 : 0x30 ≤ 0x30 + d ∧ 0x30 + d ≤ 0x39 := by omega
    simp only [h10, if_true, h1, and_self]
    rw [if_pos (by omega)]
    congr 1
    omega
  · simp only [h10, if_false]
    have h1 : ¬(0x30 ≤ 0x57 + d ∧ 0x57 + d ≤ 0x39) := by omega
    have h2 : 0x61 ≤ 0x57 + d ∧ 0x57 + d ≤ 0x7A := by omega
    simp only [h1, if_false, h2, and_self, if_true]
    rw [if_pos (by omega)]
    congr 1
    omega

/-- Written digits have the value they were written for. -/
theorem ofDigits?_toDigits {base : Nat} (hlow : 2 ≤ base) (hhigh : base ≤ 36) (n : Nat) :
    ofDigits? base (toDigits base n) = some n := by
  induction n using Nat.strongRecOn with
  | ind n ih =>
    rw [toDigits]
    split
    · rename_i h
      have hn : n < base := by omega
      simp [ofDigits?, digitValue?_digitChar hhigh hn]
    · rename_i h
      have hn : base ≤ n := by omega
      -- The remainder is the last digit, behind those of the quotient.
      rw [ofDigits?_append, ih (n / base) (Nat.div_lt_self (by omega) (by omega))]
      have hmod : n % base < base := Nat.mod_lt _ (by omega)
      simp only [Option.bind_some, List.foldlM_cons, List.foldlM_nil,
        digitValue?_digitChar hhigh hmod, Option.map_some]
      simp [Nat.div_add_mod']

end Textmate.Text
