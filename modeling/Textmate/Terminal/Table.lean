import Textmate.Text.Split
import Textmate.Text.Width

/-!
# Tables

Tables in a frame of lines with round corners. A cell may have several lines; a column is as wide as
its widest line, and a row as high as its highest cell.

Main statement: a row has a text line for each line of its highest cell (`length_rowLines`).
-/

namespace Textmate.Table

def cellLines (cell : String) : List String :=
  Text.splitString '\n' cell

/-- The number of columns that a cell needs. -/
def cellWidth (cell : String) : Nat :=
  ((cellLines cell).map fun line => Text.width line.toList).foldl max 0

/-- The widths of the columns of a table. -/
def columnWidths (rows : List (List String)) : List Nat :=
  rows.foldl (fun widths row => List.zipWithAll widest widths (row.map cellWidth)) []
where
  /-- The width that is enough for both, as far as they are there. -/
  widest (a b : Option Nat) : Nat := max (a.getD 0) (b.getD 0)

def repeated (text : String) (n : Nat) : String :=
  String.join (List.replicate n text)

/-- A line of the frame, with a blank on both sides of each column. -/
def frameLine (left middle right : String) (widths : List Nat) : String :=
  left ++ Text.joinWith middle (widths.map fun width => repeated "─" (width + 2)) ++ right

/-- A line of a cell filled up to the width of its column, with a blank on both sides. -/
def padded (width : Nat) (line : String) : String :=
  " " ++ line ++ repeated " " (width - Text.width line.toList) ++ " "

def rowHeight (row : List String) : Nat :=
  (row.map fun cell => (cellLines cell).length).foldl max 0

/-- The text lines of a row. -/
def rowLines (widths : List Nat) (row : List String) : List String :=
  (List.range (rowHeight row)).map fun i =>
    let cells :=
      List.zipWith (fun width cell => padded width ((cellLines cell).getD i "")) widths row
    "│" ++ Text.joinWith "│" cells ++ "│"

/-- A table with a head; without rows there is no table. -/
def render (head : List String) (rows : List (List String)) : String :=
  if rows.isEmpty then ""
  else
    let widths := columnWidths (head :: rows)
    Text.joinWith "\n" <|
      [frameLine "╭" "┬" "╮" widths] ++ rowLines widths head ++ [frameLine "├" "┼" "┤" widths] ++
        rows.flatMap (rowLines widths) ++ [frameLine "╰" "┴" "╯" widths]

def measures (rows : List (String × String)) : String :=
  render ["Metric", "Value"] (rows.map fun (measure, value) => [measure, value])

/-- A row has a text line for each line of its highest cell. -/
theorem length_rowLines (widths : List Nat) (row : List String) :
    (rowLines widths row).length = rowHeight row := by
  simp [rowLines]

end Textmate.Table
