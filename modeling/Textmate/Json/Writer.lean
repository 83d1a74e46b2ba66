import Textmate.Json.Basic
import Textmate.Text.Split

/-!
# Writing values

The text of a value: compact, or over several lines with an indentation of two blanks. Strings are
written as they are, apart from quotes, backslashes and control characters.
-/

namespace Textmate.Json

/-- The characters that stand for one character of a string. -/
def escape (c : Char) : List Char :=
  match c with
  | '"' => ['\\', '"']
  | '\\' => ['\\', '\\']
  | '\x08' => ['\\', 'b']
  | '\x0c' => ['\\', 'f']
  | '\n' => ['\\', 'n']
  | '\r' => ['\\', 'r']
  | '\t' => ['\\', 't']
  | c => if c.toNat < 0x20 then '\\' :: 'u' :: Text.toPadded 16 4 c.toNat else [c]

def quote (s : String) : String :=
  String.ofList ('"' :: s.toList.flatMap escape ++ ['"'])

mutual

/-- The text of a value on one line without blanks. -/
def compact : Json → String
  | .null => "null"
  | .bool b => if b then "true" else "false"
  | .number n => String.ofList n.toText
  | .string s => quote s
  | .array items => "[" ++ Text.joinWith "," (compactItems items) ++ "]"
  | .object members => "\x7b" ++ Text.joinWith "," (compactMembers members) ++ "\x7d"

/-- The texts of the items of an array. -/
def compactItems : List Json → List String
  | [] => []
  | item :: items => item.compact :: compactItems items

/-- The texts of the members of an object. -/
def compactMembers : List (String × Json) → List String
  | [] => []
  | (key, item) :: members => (quote key ++ ":" ++ item.compact) :: compactMembers members

end

/-- A line break and the indentation of a nesting depth. -/
def lineBreak (depth : Nat) : String :=
  String.ofList ('\n' :: List.replicate (2 * depth) ' ')

/-- Texts between brackets, each on its own line; an empty list stays on the line. -/
def block (left right : String) (depth : Nat) (parts : List String) : String :=
  if parts.isEmpty then left ++ right
  else left ++ lineBreak (depth + 1) ++ Text.joinWith ("," ++ lineBreak (depth + 1)) parts ++
    lineBreak depth ++ right

mutual

/-- The text of a value at a nesting depth, with every item and member on its own line. -/
def prettyAt (depth : Nat) : Json → String
  | .array items => block "[" "]" depth (prettyItems (depth + 1) items)
  | .object members => block "\x7b" "\x7d" depth (prettyMembers (depth + 1) members)
  | value => value.compact

/-- The texts of the items of an array. -/
def prettyItems (depth : Nat) : List Json → List String
  | [] => []
  | item :: items => item.prettyAt depth :: prettyItems depth items

/-- The texts of the members of an object. -/
def prettyMembers (depth : Nat) : List (String × Json) → List String
  | [] => []
  | (key, item) :: members =>
    (quote key ++ ": " ++ item.prettyAt depth) :: prettyMembers depth members

end

/-- The text of a value over several lines. -/
def pretty (value : Json) : String :=
  value.prettyAt 0

end Textmate.Json
