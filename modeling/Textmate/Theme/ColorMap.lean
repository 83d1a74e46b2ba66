import Textmate.Metadata.Word
import Textmate.Text.Uppercase

/-!
# Color maps

A color map numbers colors, so that a metadata word can hold an index instead of a text. Colors are
kept in upper case. Index zero stands for no color: a growable map starts with an empty entry, to
which no color is given, and further colors are appended. A fixed map is given as a whole; of
several entries with one color the last one counts.
-/

namespace Textmate

/-- A color map. -/
inductive ColorMap where
  /-- A map to which the colors were added one by one; the entry zero is not among them. -/
  | growable (added : List String)
  /-- A map with all entries given. -/
  | fixed (table : List String)
  deriving Repr, DecidableEq

/-- Why a color has no index. -/
inductive ColorMap.Problem where
  /-- A fixed map is too large. -/
  | tooLarge (size : Nat)
  /-- A fixed map does not hold the color. -/
  | missing (color : String)
  /-- A growable map has no room for the color. -/
  | full (color : String)
  deriving Repr, DecidableEq

namespace ColorMap

/-- The number of entries that indices of a metadata word can reach. -/
def capacity : Nat := maxColor + 1

/-- The wording of the problem. -/
def Problem.message : Problem → String
  | .tooLarge size =>
    "color map has " ++ Text.decimal size ++ " entries, at most " ++ Text.decimal capacity ++ " fit"
  | .missing color => "Missing color in color map - " ++ color
  | .full color =>
    "too many colors: " ++ color ++ " does not fit in " ++ Text.decimal capacity ++ " entries"

def empty : ColorMap := .growable []

def ofTable (table : List String) : Except Problem ColorMap :=
  if table.length ≤ capacity then .ok (.fixed (table.map Text.upperString))
  else .error (.tooLarge table.length)

/-- The entries in the order of their indices. -/
def colors : ColorMap → List String
  | .growable added => "" :: added
  | .fixed table => table

def size (map : ColorMap) : Nat := map.colors.length

def isFixed : ColorMap → Bool
  | .growable _ => false
  | .fixed _ => true

/-- The index of the last entry of a table with the color. -/
def lastIndex? (color : String) (table : List String) : Option Nat :=
  (table.reverse.idxOf? color).map (table.length - 1 - ·)

/-- The index of a color in upper case. -/
def find? (color : String) : ColorMap → Option Nat
  | .growable added => (added.idxOf? color).map (· + 1)
  | .fixed table => if color = "" then none else lastIndex? color table

def idOf? (map : ColorMap) (color : String) : Option Nat :=
  map.find? (Text.upperString color)

/-- The color with an index; an empty entry is no color. -/
def color? (map : ColorMap) (id : Nat) : Option String :=
  map.colors[id]?.filter (· ≠ "")

/-- The index of a color, and the map with the color added if it was not there. -/
def intern (map : ColorMap) (color : String) : Except Problem (Nat × ColorMap) :=
  let color := Text.upperString color
  -- A color that is there keeps its index, in either kind of map.
  match map.find? color, map with
  | some id, _ => .ok (id, map)
  | none, .fixed _ => .error (.missing color)
  | none, .growable added =>
    if added.length + 1 < capacity then .ok (added.length + 1, .growable (added ++ [color]))
    else .error (.full color)

end ColorMap

end Textmate
