import SqlSyntax.Text.Lines
import SqlSyntax.Unicode.Width

/-!
# Tables

Rows of cells drawn with box characters: a rule between all rows, each column
as wide as its widest line, cells flush left with a blank on both sides. A cell
with several lines makes its row as high.
-/

namespace SqlSyntax.Table

/-- The lines of a cell. -/
def cellLines (cell : String) : List String :=
  (Lines.splitLines cell.toList).map String.ofList

def lineWidth (line : String) : Nat := Unicode.width line.toList

/-- The width of a cell, which is that of its widest line. -/
def cellWidth (lines : List String) : Nat := (lines.map lineWidth).foldl max 0

/-- The widths of the columns, as many as the first row has cells. -/
def columnWidths : List (List (List String)) → List Nat
  | [] => []
  | row :: rows =>
    rows.foldl (fun widths row => List.zipWith max widths (row.map cellWidth))
      (row.map cellWidth)

/-- A text repeated. -/
def repeated (n : Nat) (text : String) : String := String.join (List.replicate n text)

/-- A line between rows. -/
def rule (left middle right : String) (widths : List Nat) : String :=
  left ++ middle.intercalate (widths.map fun w => repeated (w + 2) "─") ++ right

/-- A line of text in a column, filled up to the width of the column. -/
def padded (width : Nat) (line : String) : String :=
  " " ++ line ++ repeated (width - lineWidth line) " " ++ " "

/-- The first `height` lines of a row. -/
def rowLines (widths : List Nat) : Nat → List (List String) → List String
  | 0, _ => []
  | height + 1, cells =>
    ("│" ++ "│".intercalate (List.zipWith padded widths (cells.map (·.headD ""))) ++ "│")
      :: rowLines widths height (cells.map List.tail)

/-- The lines of a row, as many as its highest cell has. -/
def row (widths : List Nat) (cells : List (List String)) : List String :=
  rowLines widths ((cells.map List.length).foldl max 0) cells

/-- A table with the given rows, its lines separated by newlines. -/
def draw (rows : List (List String)) : String :=
  let cells := rows.map (·.map cellLines)
  let widths := columnWidths cells
  let between := rule "├" "┼" "┤" widths
  "\n".intercalate <|
    rule "┌" "┬" "┐" widths
      :: ((cells.map (row widths)).intersperse [between]).flatten
      ++ [rule "└" "┴" "┘" widths]

end SqlSyntax.Table
