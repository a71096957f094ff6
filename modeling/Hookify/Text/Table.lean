import Hookify.Text.Segments
import Hookify.Text.Width

namespace Hookify
namespace Text

/-!
# Tables

A table has a heading and rows, all with the same number of cells, and is
enclosed in lines.  A column is as wide as its widest cell, with one space on
either side.  A cell of several lines makes its row as many lines high.
-/

/-- A line across a table: its left end, its stroke, where it meets a column line, its right end. -/
structure Rule where
  left : Char
  stroke : Char
  crossing : Char
  right : Char

/-- The line above a table. -/
def topRule : Rule := ⟨'┌', '─', '┬', '┐'⟩

/-- The line below the heading. -/
def headingRule : Rule := ⟨'╞', '═', '╪', '╡'⟩

/-- The line between two rows. -/
def rowRule : Rule := ⟨'├', '╌', '┼', '┤'⟩

/-- The line below a table. -/
def bottomRule : Rule := ⟨'└', '─', '┴', '┘'⟩

/-- The lines of a cell. -/
def cellLines (cell : String) : List String :=
  splitOn '\n' cell

/-- The width of the widest line of a cell. -/
def cellWidth (cell : String) : Nat :=
  ((cellLines cell).map width).foldl max 0

/-- The widths of the columns of some rows. -/
def columnWidths : List (List String) → List Nat
  | [] => []
  | [row] => row.map cellWidth
  | row :: next :: rest => (row.map cellWidth).zipWith max (columnWidths (next :: rest))

/-- A line across columns of the given widths. -/
def Rule.draw (rule : Rule) (widths : List Nat) : String :=
  let strokes := widths.map fun width => String.ofList (List.replicate (width + 2) rule.stroke)
  rule.left.toString ++ String.intercalate rule.crossing.toString strokes ++ rule.right.toString

/-- A text with spaces behind it up to a width. -/
def padTo (wanted : Nat) (text : String) : String :=
  text ++ String.ofList (List.replicate (wanted - width text) ' ')

/-- One line of the cells of a row. -/
def rowLine (widths : List Nat) (cells : List String) : String :=
  "│ " ++ String.intercalate " ┆ " (widths.zipWith padTo cells) ++ " │"

/-- The lines of a row. -/
def rowLines (widths : List Nat) (row : List String) : List String :=
  let cells := row.map cellLines
  let height := (cells.map List.length).foldl max 0
  (List.range height).map fun index =>
    rowLine widths (cells.map fun lines => (lines[index]?).getD "")

/-- The lines of a table. -/
def tableLines (heading : List String) (rows : List (List String)) : List String :=
  let widths := columnWidths (heading :: rows)
  let body := (rows.map (rowLines widths)).intersperse [rowRule.draw widths]
  [topRule.draw widths] ++ rowLines widths heading ++ [headingRule.draw widths] ++
    body.flatten ++ [bottomRule.draw widths]

end Text
end Hookify
