import Textmate.Json.Basic

/-!
# Tokens of JSON

The lexical level of JSON: punctuation, literals, numbers and strings, with blanks between them.

A string is read into code points; an escape `\u` may name half of a character, and `decodeUnits`
joins the halves.
-/

namespace Textmate.Json

/-- A token. -/
inductive Token where
  | openArray
  | closeArray
  | openObject
  | closeObject
  | comma
  | colon
  | null
  /-- One of the literals `true` and `false`. -/
  | bool (value : Bool)
  | number (value : Option Number)
  | string (value : Option String)
  deriving Repr

def isSpace (c : Char) : Bool :=
  c == ' ' || c == '\n' || c == '\t' || c == '\r'

/-- The characters of a list of code points, where a high half of a character has to be followed by
a low one. -/
def decodeUnits : List Nat → Option (List Char)
  | [] => some []
  | high :: rest =>
    if 0xD800 ≤ high ∧ high < 0xDC00 then
      match rest with
      | low :: rest =>
        -- The two halves have ten bits each.
        if 0xDC00 ≤ low ∧ low < 0xE000 then
          (decodeUnits rest).map
            (Char.ofNat (0x10000 + (high - 0xD800) * 0x400 + (low - 0xDC00)) :: ·)
        else none
      | [] => none
    else if 0xDC00 ≤ high ∧ high < 0xE000 then none
    else (decodeUnits rest).map (Char.ofNat high :: ·)

/-- The character that a letter after a backslash stands for. -/
def simpleEscape? : Char → Option Char
  | '"' => some '"'
  | '\\' => some '\\'
  | '/' => some '/'
  | 'b' => some '\x08'
  | 'f' => some '\x0c'
  | 'n' => some '\n'
  | 'r' => some '\r'
  | 't' => some '\t'
  | _ => none

/-- Reads a string after its opening quote: the code points up to the closing quote, and the rest of
the text. -/
def stringUnits? : List Char → Option (List Nat × List Char)
  | [] => none
  | '"' :: cs => some ([], cs)
  -- The halves of a character are joined later, so a half is a unit of its own here.
  | '\\' :: 'u' :: a :: b :: c :: d :: cs =>
    match Text.ofDigits? 16 [a, b, c, d], stringUnits? cs with
    | some unit, some (units, rest) => some (unit :: units, rest)
    | _, _ => none
  | '\\' :: e :: cs =>
    match simpleEscape? e, stringUnits? cs with
    | some c, some (units, rest) => some (c.toNat :: units, rest)
    | _, _ => none
  | c :: cs =>
    if c.toNat < 0x20 ∨ c = '\\' then none
    else (stringUnits? cs).map fun (units, rest) => (c.toNat :: units, rest)

/-- The leading digits of a text, and the rest. -/
def takeDigits (cs : List Char) : List Char × List Char :=
  (cs.takeWhile Char.isDigit, cs.dropWhile Char.isDigit)

/-- Reads the exponent of a number, if there is one. -/
def exponent? : List Char → Option (Option (Bool × List Char) × List Char)
  | [] => some (none, [])
  | mark :: cs =>
    if mark = 'e' ∨ mark = 'E' then
      let (negative, cs) := match cs with
        | '-' :: cs => (true, cs)
        | '+' :: cs => (false, cs)
        | cs => (false, cs)
      let (digits, rest) := takeDigits cs
      -- A mark without digits behind it makes the number malformed.
      if digits.isEmpty then none else some (some (negative, digits), rest)
    else some (none, mark :: cs)

/-- Reads the fraction of a number, if there is one. -/
def fraction? : List Char → Option (Option (List Char) × List Char)
  | '.' :: cs =>
    let (digits, rest) := takeDigits cs
    if digits.isEmpty then none else some (some digits, rest)
  | cs => some (none, cs)

/-- Reads a number after its sign. Zero is the only number before the point that starts with the
digit zero. -/
def unsigned? (negative : Bool) (cs : List Char) : Option (NumberText × List Char) :=
  let (whole, rest) := takeDigits cs
  -- No zeros may stand in front of other digits.
  if whole.isEmpty ∨ (whole.head? = some '0' ∧ whole.length ≠ 1) then none
  else
    match fraction? rest with
    | none => none
    | some (fraction, rest) =>
      (exponent? rest).map fun (exponent, rest) => (⟨negative, whole, fraction, exponent⟩, rest)

/-- Reads one token at the start of a text that starts with no blank. -/
def next? : List Char → Option (Token × List Char)
  | '[' :: cs => some (.openArray, cs)
  | ']' :: cs => some (.closeArray, cs)
  | '\x7b' :: cs => some (.openObject, cs)
  | '\x7d' :: cs => some (.closeObject, cs)
  | ',' :: cs => some (.comma, cs)
  | ':' :: cs => some (.colon, cs)
  | 'n' :: 'u' :: 'l' :: 'l' :: cs => some (.null, cs)
  | 't' :: 'r' :: 'u' :: 'e' :: cs => some (.bool true, cs)
  | 'f' :: 'a' :: 'l' :: 's' :: 'e' :: cs => some (.bool false, cs)
  | '"' :: cs =>
    -- A string whose code points are no characters is a token, which has no value.
    (stringUnits? cs).map fun (units, rest) =>
      (.string ((decodeUnits units).map String.ofList), rest)
  | '-' :: cs => (unsigned? true cs).map fun (text, rest) => (.number text.value?, rest)
  | cs => (unsigned? false cs).map fun (text, rest) => (.number text.value?, rest)

/-- Reads at most the given number of tokens, with blanks around them, up to the end of the text. -/
def tokensWithin? : Nat → List Char → Option (List Token)
  | limit, cs =>
    match cs.dropWhile isSpace, limit with
    | [], _ => some []
    | _, 0 => none
    | rest, limit + 1 =>
      match next? rest with
      | none => none
      | some (token, rest) => (tokensWithin? limit rest).map (token :: ·)

/-- The tokens of a text, or nothing if the text does not consist of tokens and blanks. There are no
more tokens than characters. -/
def tokens? (cs : List Char) : Option (List Token) :=
  tokensWithin? cs.length cs

end Textmate.Json
