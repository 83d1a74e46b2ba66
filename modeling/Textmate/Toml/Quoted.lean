import Textmate.Text.Digits
import Textmate.Text.Split

/-!
# Strings and keys of TOML

A string stands between two quotes, or between two rows of three quotes and may then have several
lines. Between double quotes a backslash starts an escape; between single quotes all characters
stand for themselves. A key may be written without quotes if its characters are letters, digits,
hyphens and underscores.

A string is written in the form that needs no escapes, if there is one.
-/

namespace Textmate.Toml

/-- Characters that may stand in a line: all but control characters, of which the tab may. -/
def isLineChar (c : Char) : Bool :=
  c = '\t' || (0x20 ≤ c.toNat && c.toNat ≠ 0x7F)

def isBlank (c : Char) : Bool :=
  c = ' ' || c = '\t'

/-- The rest of a text behind a line break at its start. -/
def afterLineBreak? : List Char → Option (List Char)
  | '\n' :: cs => some cs
  | '\r' :: '\n' :: cs => some cs
  | _ => none

/-- How a string is written. -/
structure Quoting where
  quote : Char
  /-- Whether a row of three quotes stands at both ends. -/
  isMultiline : Bool
  deriving Repr, DecidableEq

namespace Quoting

def basic : Quoting := ⟨'"', false⟩

/-- Rows of double quotes. -/
def multilineBasic : Quoting := ⟨'"', true⟩

def literal : Quoting := ⟨'\'', false⟩

/-- Rows of single quotes. -/
def multilineLiteral : Quoting := ⟨'\'', true⟩

def hasEscapes (quoting : Quoting) : Bool :=
  quoting.quote = '"'

/-- What stands at both ends of a string. -/
def fence (quoting : Quoting) : List Char :=
  if quoting.isMultiline then List.replicate 3 quoting.quote else [quoting.quote]

/-- The end of a string at the start of a text: quotes that still belong to the string, of which
there may be two in front of a row of three, and what follows the string. -/
def atEnd? (quoting : Quoting) (cs : List Char) : Option (List Char × List Char) :=
  let quotes (n : Nat) := List.replicate n quoting.quote
  let ending (n : Nat) :=
    (Text.afterStart? (quotes n ++ quoting.fence) cs).map fun rest => (quotes n, rest)
  -- As many quotes as possible belong to the string.
  if quoting.isMultiline then (ending 2).or ((ending 1).or (ending 0)) else ending 0

end Quoting

/-- The character of an escape of one letter. -/
def simpleEscape? : Char → Option Char
  | 'b' => some '\x08'
  | 't' => some '\t'
  | 'n' => some '\n'
  | 'f' => some '\x0c'
  | 'r' => some '\r'
  | '"' => some '"'
  | '\\' => some '\\'
  | _ => none

/-- The character whose number is written with hexadecimal digits. -/
def numberedChar? (digits : List Char) : Option Char :=
  (Text.ofDigits? 16 digits).bind fun n => if n.isValidChar then some (Char.ofNat n) else none

/-- Reads a string behind its opening quotes: the characters of the string, and the rest of the text
behind the closing quotes. After a backslash at the end of a line, blanks and line breaks are left
out; `trimming` says that this is going on. -/
def readString? (quoting : Quoting) (trimming : Bool) : List Char → Option (List Char × List Char)
  | [] => none
  | c :: cs =>
    let push (char : Char) (read : Option (List Char × List Char)) :=
      read.map fun (text, rest) => (char :: text, rest)
    -- A gap goes on up to the first character that is not blank.
    if trimming && (isBlank c || c = '\n') then readString? quoting true cs
    else if c = '\r' then
      -- A carriage return is part of a line break, or an error.
      match cs with
      | '\n' :: cs =>
        if trimming then readString? quoting true cs
        else if quoting.isMultiline then push '\n' (readString? quoting false cs)
        else none
      | _ => none
    else match quoting.atEnd? (c :: cs) with
      | some found => some found
      | none =>
        -- A backslash at the end of a line begins a gap, any other one an escape.
        if c = '\\' && quoting.hasEscapes then
          if quoting.isMultiline && (afterLineBreak? (cs.dropWhile isBlank)).isSome then
            readString? quoting true cs
          else match cs with
            | 'u' :: a :: b :: d :: e :: cs =>
              (numberedChar? [a, b, d, e]).bind fun char => push char (readString? quoting false cs)
            | 'U' :: a :: b :: d :: e :: f :: g :: h :: i :: cs =>
              (numberedChar? [a, b, d, e, f, g, h, i]).bind fun char =>
                push char (readString? quoting false cs)
            | letter :: cs =>
              (simpleEscape? letter).bind fun char => push char (readString? quoting false cs)
            | [] => none
        else if isLineChar c || (c = '\n' && quoting.isMultiline) then
          push c (readString? quoting false cs)
        else none

/-- Reads a string at the start of a text. A line break behind the opening row does not belong to
the string. -/
def quoted? (quoting : Quoting) (cs : List Char) : Option (String × List Char) := do
  let rest ← Text.afterStart? quoting.fence cs
  -- Only one line break is dropped.
  let body := if quoting.isMultiline then (afterLineBreak? rest).getD rest else rest
  let (text, rest) ← readString? quoting false body
  pure (String.ofList text, rest)

/-- Reads a string of any form at the start of a text; a row of three quotes comes before a single
one. -/
def anyString? (cs : List Char) : Option (String × List Char) :=
  let forms := [Quoting.multilineBasic, .basic, .multilineLiteral, .literal]
  match forms.find? fun quoting => (Text.afterStart? quoting.fence cs).isSome with
  | none => none
  | some quoting => quoted? quoting cs

/-- Characters of keys without quotes. -/
def isKeyChar (c : Char) : Bool :=
  c.isAlphanum || c = '-' || c = '_'

/-- Reads one part of a key at the start of a text. -/
def simpleKey? (cs : List Char) : Option (String × List Char) :=
  match cs.head? with
  | some '"' => quoted? .basic cs
  | some '\'' => quoted? .literal cs
  | _ =>
    let key := cs.takeWhile isKeyChar
    if key.isEmpty then none else some (String.ofList key, cs.dropWhile isKeyChar)

/-- Control characters that have to be escaped. -/
def needsEscape (c : Char) : Bool :=
  !isLineChar c && c ≠ '\n'

/-- The length of the longest row of a character. -/
def longestRow (char : Char) : List Char → Nat
  | cs => (cs.foldl step (0, 0)).2
where
  /-- The length of the row that goes on, and that of the longest one. -/
  step : Nat × Nat → Char → Nat × Nat
    | (row, best), c => if c = char then (row + 1, max best (row + 1)) else (0, best)

namespace Quoting

/-- The form in which a string is written: one that needs no escapes, if possible, and several lines
only where they avoid escapes. -/
def ofString (cs : List Char) : Quoting :=
  let lines := cs.contains '\n'
  let controls := cs.any needsEscape
  let backslash := cs.contains '\\'
  -- The forms in the order in which they are preferred.
  if !controls && !backslash && !cs.contains '"' && !lines then basic
  else if !controls && !cs.contains '\'' && !lines then literal
  else if !controls && !backslash && longestRow '"' cs ≤ 2 then multilineBasic
  else if !controls && longestRow '\'' cs ≤ 2 then multilineLiteral
  else if lines then multilineBasic
  else basic

/-- The form in which a key with quotes is written. -/
def ofKey (cs : List Char) : Quoting :=
  let controls := cs.any (!isLineChar ·)
  if !controls && !cs.contains '\\' && !cs.contains '"' then basic
  else if !controls && !cs.contains '\'' then literal
  else basic

end Quoting

/-- A character of a string with escapes; `row` is the number of quotes directly before it. -/
def escapeChar (quoting : Quoting) (row : Nat) (c : Char) : List Char :=
  match c with
  | '\x08' => ['\\', 'b']
  | '\t' => ['\\', 't']
  | '\x0c' => ['\\', 'f']
  | '\r' => ['\\', 'r']
  | '\n' => if quoting.isMultiline then ['\n'] else ['\\', 'n']
  | '\\' => ['\\', '\\']
  | '"' => if quoting.isMultiline ∧ row < 2 then ['"'] else ['\\', '"']
  | c => if needsEscape c then ['\\', 'u'] ++ (Text.toPadded 16 4 c.toNat).map Char.toUpper else [c]

/-- The characters of a string with escapes, behind `row` quotes. -/
def escapeChars (quoting : Quoting) (row : Nat) : List Char → List Char
  | [] => []
  | c :: cs =>
    -- Behind an escaped quote a new row begins.
    let row' := if c = '"' ∧ row < 2 then row + 1 else 0
    escapeChar quoting row c ++ escapeChars quoting row' cs

/-- A string in a form. A string with line breaks starts on a line of its own. -/
def writeQuoted (quoting : Quoting) (text : String) : String :=
  let cs := text.toList
  let start := if quoting.isMultiline && cs.contains '\n' then ['\n'] else []
  let body := if quoting.hasEscapes then escapeChars quoting 0 cs else cs
  String.ofList (quoting.fence ++ start ++ body ++ quoting.fence)

def writeString (text : String) : String :=
  writeQuoted (.ofString text.toList) text

def writeKey (key : String) : String :=
  let cs := key.toList
  if !cs.isEmpty && cs.all isKeyChar then key else writeQuoted (.ofKey cs) key

end Textmate.Toml
