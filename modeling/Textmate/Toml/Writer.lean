import Textmate.Text.Digits
import Textmate.Toml.Quoted

/-!
# Writing TOML

Lines of a TOML text. An array with more than one item has a line for each.
-/

namespace Textmate.Toml

/-- A list of values that are already written. -/
def writeArray : List String → String
  | [] => "[]"
  | [item] => "[" ++ item ++ "]"
  | items => "[\n" ++ String.join (items.map fun item => "    " ++ item ++ ",\n") ++ "]"

def writeStrings (items : List String) : String :=
  writeArray (items.map writeString)

/-- The line of an entry whose value is already written. -/
def writeEntry (key value : String) : String :=
  writeKey key ++ " = " ++ value ++ "\n"

/-- A table with its header, with entries that are already written. -/
def writeTable (header : String) (entries : List String) : String :=
  "\n[" ++ writeKey header ++ "]\n" ++ String.join entries

end Textmate.Toml
