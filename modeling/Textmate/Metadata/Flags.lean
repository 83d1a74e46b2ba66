import Textmate.Json.Decode
import Textmate.Text.Blank

/-!
# Token types and font styles

Both are sets of flags in eight bits, of which three have names. Bits without a name are kept. The
text of a set joins the names of its flags with bars and puts the other bits last, in hexadecimal.
-/

namespace Textmate

abbrev FlagNames := List (String × UInt8)

namespace FlagNames

/-- The names of the flags in a set. -/
def namesIn (table : FlagNames) (bits : UInt8) : List String :=
  (table.filter fun (_, flag) => bits &&& flag == flag).map (·.1)

/-- The bits of a set that have no name. -/
def unnamed (table : FlagNames) (bits : UInt8) : UInt8 :=
  table.foldl (fun rest (_, flag) => rest &&& ~~~flag) bits

/-- The text of a set of flags; the empty set has the empty text. -/
def text (table : FlagNames) (bits : UInt8) : String :=
  let rest := table.unnamed bits
  let hex := "0x" ++ String.ofList (Text.toDigits 16 rest.toNat)
  Text.joinWith " | " (table.namesIn bits ++ if rest = 0 then [] else [hex])

/-- The text of a set of flags as it is shown inside other values. -/
def describe (table : FlagNames) (type : String) (bits : UInt8) : String :=
  type ++ "(" ++ (if bits = 0 then "0x0" else table.text bits) ++ ")"

/-- The bits that one part of a text stands for: a name, or hexadecimal digits. -/
def part? (table : FlagNames) (part : List Char) : Option UInt8 :=
  match Text.afterStart? ['0', 'x'] part with
  | some digits => (Text.readNumber 16 256 digits).toOption.map UInt8.ofNat
  | none => table.lookup (String.ofList part)

/-- The set of flags that a text stands for. -/
def parse? (table : FlagNames) (text : String) : Option UInt8 :=
  if (Text.trim text.toList).isEmpty then some 0
  else
    ((Text.split '|' text.toList).mapM fun part => table.part? (Text.trim part)).map
      (·.foldl (· ||| ·) 0)

end FlagNames

/-- A class of tokens. The empty set is the class of plain code. -/
structure TokenType where
  bits : UInt8
  deriving Repr, DecidableEq, Inhabited

namespace TokenType

def other : TokenType := ⟨0⟩

def comment : TokenType := ⟨1⟩

def string : TokenType := ⟨2⟩

def regex : TokenType := ⟨4⟩

def names : FlagNames := [("COMMENT", 1), ("STRING", 2), ("REGEX", 4)]

/-- The type with a name, in letters of either case. No letter outside ASCII has the lower case of a
letter of one of the names. -/
def ofName? (name : String) : Option TokenType :=
  match String.ofList (name.toList.map Char.toLower) with
  | "other" => some other
  | "comment" => some comment
  | "string" => some string
  | "regex" => some regex
  | "regexp" => some regex
  | _ => none

def toJson (type : TokenType) : Json := .string (names.text type.bits)

def ofDocument? (document : Document) : Option TokenType :=
  (document.string?.bind names.parse?).map TokenType.mk

/-- The type as it is shown inside other values. -/
def describe (type : TokenType) : String := names.describe "TokenType" type.bits

end TokenType

/-- A font style. -/
structure FontStyle where
  bits : UInt8
  deriving Repr, DecidableEq, Inhabited

namespace FontStyle

def plain : FontStyle := ⟨0⟩

def names : FlagNames := [("ITALIC", 1), ("BOLD", 2), ("UNDERLINE", 4)]

/-- The flag of a word of a theme; other words have none. -/
def ofWord : String → FontStyle
  | "italic" => ⟨1⟩
  | "bold" => ⟨2⟩
  | "underline" => ⟨4⟩
  | _ => plain

/-- The flags of the words of a text. -/
def ofWords (text : String) : FontStyle :=
  (Text.words text.toList).foldl
    (fun style word => ⟨style.bits ||| (ofWord (String.ofList word)).bits⟩) plain

def toJson (style : FontStyle) : Json := .string (names.text style.bits)

def ofDocument? (document : Document) : Option FontStyle :=
  (document.string?.bind names.parse?).map FontStyle.mk

/-- The style as it is shown inside other values. -/
def describe (style : FontStyle) : String := names.describe "FontStyle" style.bits

end FontStyle

end Textmate
