/-!
# Colors of the terminal

Texts on a terminal are styled by the part they play. Without colors a text stays as it is.
-/

namespace Textmate

/-- The parts that texts play on the terminal. -/
inductive TextRole where
  | header
  | success
  | error
  | warning
  | label
  /-- The name of a scope that was found. -/
  | scope
  | rule
  /-- The name of a scope that is missing. -/
  | missing
  | word
  deriving Repr, DecidableEq

/-- The codes that switch a style on: of a color, and of a manner of writing. -/
def TextRole.codes : TextRole → String
  | header => "36;1"
  | success => "32;1"
  | error => "31;1"
  | warning => "33;1"
  | label => "37;2"
  | scope => "34"
  | rule => "35"
  | missing => "90;9"
  | word => "33"

/-- A text in the style of a part, if there are colors. -/
def TextRole.paint (role : TextRole) (colored : Bool) (text : String) : String :=
  if colored then "\x1b[" ++ role.codes ++ "m" ++ text ++ "\x1b[0m" else text

end Textmate
