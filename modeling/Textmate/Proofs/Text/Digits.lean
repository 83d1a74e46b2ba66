import Mathlib.Data.List.Basic
import Textmate.Text.Digits

/-!
# Reading numbers below a bound

Reading digits one after another computes the number that they make up, and stops at the first
digit behind which the number is not below the bound any more. As numbers only grow when digits
follow, that happens exactly when the whole number is not below the bound.

## Key results

- `readNumber_of_ofDigits?`: what is read from digits
- `ofDigits?_toPadded`: digits that are filled up with zeros have the value they were written for
-/

namespace Textmate.Text

variable {base bound value n : Nat} {c : Char} {cs : List Char}

/-! ## Digits -/

/-- A digit of some base is a decimal digit or a letter without an accent. -/
theorem alphanumeric_of_digitValue? (h : (digitValue? base c).isSome) :
    0x30 ≤ c.toNat ∧ c.toNat ≤ 0x39 ∨ 0x41 ≤ c.toNat ∧ c.toNat ≤ 0x5A ∨
      0x61 ≤ c.toNat ∧ c.toNat ≤ 0x7A := by
  simp only [digitValue?] at h
  split_ifs at h <;> simp_all

/-- The value of digits behind others, whose value is given. -/
def ofDigitsBehind? (base value : Nat) (cs : List Char) : Option Nat :=
  cs.foldlM (fun value c => (digitValue? base c).map (value * base + ·)) value

/-- A digit is added behind the value so far. -/
private theorem ofDigitsBehind?_cons (base value : Nat) (c : Char) (cs : List Char) :
    ofDigitsBehind? base value (c :: cs) =
      (digitValue? base c).bind fun d => ofDigitsBehind? base (value * base + d) cs := by
  rw [ofDigitsBehind?, List.foldlM_cons]
  cases digitValue? base c <;> rfl

/-- A number is made of digits only. -/
theorem isSome_digitValue?_of_mem (h : ofDigitsBehind? base value cs = some n) :
    ∀ c ∈ cs, (digitValue? base c).isSome := by
  induction cs generalizing value with
  | nil => simp
  | cons c cs ih =>
    -- A first character without a value would end the reading.
    rw [ofDigitsBehind?_cons] at h
    obtain ⟨d, hd, hrest⟩ := Option.bind_eq_some_iff.1 h
    intro other hother
    rcases List.mem_cons.1 hother with rfl | hother
    · simp [hd]
    · exact ih hrest other hother

/-- A number grows when digits follow. -/
private theorem le_of_ofDigitsBehind? (hbase : 0 < base)
    (h : ofDigitsBehind? base value cs = some n) :
    value ≤ n := by
  induction cs generalizing value with
  | nil =>
    cases h
    exact Nat.le_refl _
  | cons c cs ih =>
    rw [ofDigitsBehind?_cons] at h
    obtain ⟨d, -, hrest⟩ := Option.bind_eq_some_iff.1 h
    -- A digit behind the value makes it no smaller.
    calc value ≤ value * base := Nat.le_mul_of_pos_right value hbase
      _ ≤ value * base + d := Nat.le_add_right _ _
      _ ≤ n := ih hrest

/-! ## Reading -/

/-- Digits are read unless the number that they make up is too large. -/
private theorem readDigits_of_ofDigitsBehind? (hbase : 0 < base) (hvalue : value < bound)
    (h : ofDigitsBehind? base value cs = some n) :
    readDigits base bound value cs = if n < bound then .ok n else .error .tooLarge := by
  induction cs generalizing value with
  | nil =>
    cases h
    rw [if_pos hvalue]
    rfl
  | cons c cs ih =>
    rw [ofDigitsBehind?_cons] at h
    obtain ⟨d, hd, hrest⟩ := Option.bind_eq_some_iff.1 h
    simp only [readDigits, hd]
    by_cases hnext : value * base + d < bound
    · rw [if_pos hnext, ih hnext hrest]
    · -- No digit that follows makes the number smaller again.
      have hle := le_of_ofDigitsBehind? hbase hrest
      rw [if_neg hnext, if_neg (by omega)]

/-- Digits with or without a plus sign are read unless the number that they make up is too large. -/
theorem readNumber_of_ofDigits? (hbase : 0 < base) (hbound : 0 < bound) {sign : List Char}
    (hsign : sign = [] ∨ sign = ['+']) (hne : cs ≠ []) (h : ofDigits? base cs = some n) :
    readNumber base bound (sign ++ cs) = if n < bound then .ok n else .error .tooLarge := by
  have hread := readDigits_of_ofDigitsBehind? hbase hbound h
  obtain ⟨c, rest, rfl⟩ := List.exists_cons_of_ne_nil hne
  rcases hsign with rfl | rfl
  · -- A digit is no plus sign.
    have hc : c ≠ '+' := by
      rintro rfl
      have hplus := alphanumeric_of_digitValue? (isSome_digitValue?_of_mem h '+' List.mem_cons_self)
      revert hplus
      decide
    rw [← hread, List.nil_append, readNumber] <;> simp [hc]
  · rw [← hread]
    rfl

/-! ## Writing -/

/-- Every number is written with a digit at least. -/
theorem toDigits_ne_nil (base n : Nat) : toDigits base n ≠ [] := by
  rw [toDigits]
  split <;> simp

/-- Zeros in front change no value. -/
private theorem ofDigits?_replicate_append (hbase : 0 < base) (width : Nat) (cs : List Char) :
    ofDigits? base (List.replicate width '0' ++ cs) = ofDigits? base cs := by
  have hzero : digitValue? base '0' = some 0 := by simp [digitValue?, hbase]
  induction width with
  | zero => rfl
  | succ width ih =>
    rw [List.replicate_succ, List.cons_append, ofDigits?, List.foldlM_cons, hzero, Option.map_some,
      Nat.zero_mul]
    exact ih

/-- Digits that are filled up with zeros have the value that they were written for. -/
theorem ofDigits?_toPadded (hlow : 2 ≤ base) (hhigh : base ≤ 36) (width n : Nat) :
    ofDigits? base (toPadded base width n) = some n := by
  rw [toPadded, ofDigits?_replicate_append (by omega), ofDigits?_toDigits hlow hhigh]

/-- So is every number that is filled up with zeros. -/
theorem toPadded_ne_nil (base width n : Nat) : toPadded base width n ≠ [] := by
  simp [toPadded, toDigits_ne_nil]

end Textmate.Text
