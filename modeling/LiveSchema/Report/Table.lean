import LiveSchema.Text.Columns

/-!
# LiveSchema.Report.Table

Tables drawn with box characters: a double line below the header, dashed lines between rows and
columns, and a frame around everything. A column is as wide as its widest cell with a blank on
either side. A cell may have several lines.
-/

namespace LiveSchema

/-- A header and rows with as many cells. -/
structure Table where
  header : List String
  rows : List (List String)

namespace Table

/-- The characters of a horizontal line. -/
structure Rule where
  left : String
  line : String
  cross : String
  right : String

/-- The line above the header. -/
def topRule : Rule := ⟨"┌", "─", "┬", "┐"⟩

/-- The line below the header. -/
def headerRule : Rule := ⟨"╞", "═", "╪", "╡"⟩

/-- The line between two rows. -/
def rowRule : Rule := ⟨"├", "╌", "┼", "┤"⟩

/-- The line below the last row. -/
def bottomRule : Rule := ⟨"└", "─", "┴", "┘"⟩

/-- A text several times over. -/
def repeated (s : String) (n : Nat) : String := String.join (List.replicate n s)

/-- A horizontal line across columns of the given widths. -/
def Rule.draw (rule : Rule) (widths : List Nat) : String :=
  rule.left ++ rule.cross.intercalate (widths.map (repeated rule.line)) ++ rule.right

/-- The lines of a cell. -/
def cellLines (cell : String) : List String := cell.splitOn "\n"

/-- The width of a cell: that of its longest line, and a blank on either side. -/
def cellWidth (cell : String) : Nat :=
  ((cellLines cell).map Text.columns).foldl max 0 + 2

/-- The widths of the columns. -/
def widths (t : Table) : List Nat :=
  t.rows.foldl (fun ws row => List.zipWith max ws (row.map cellWidth)) (t.header.map cellWidth)

/-- A line of a cell, filled up to a width. -/
def pad (width : Nat) (line : String) : String :=
  " " ++ line ++ repeated " " (width - 1 - Text.columns line)

/-- The lines of a row: as many as its highest cell has. -/
def drawRow (widths : List Nat) (row : List String) : List String :=
  let cells := row.map cellLines
  let height := (cells.map List.length).foldl max 0
  (List.range height).map fun i =>
    "│" ++ "┆".intercalate
      (List.zipWith (fun width lines => pad width (lines[i]?.getD "")) widths cells) ++ "│"

/-- The lines of the rows, with rules between them. -/
def drawRows (widths : List Nat) : List (List String) → List String
  | [] => []
  | [row] => drawRow widths row
  | row :: rest => drawRow widths row ++ [rowRule.draw widths] ++ drawRows widths rest

/-- The lines of a table. -/
def lines (t : Table) : List String :=
  let widths := t.widths
  [topRule.draw widths] ++ drawRow widths t.header ++ [headerRule.draw widths] ++
    drawRows widths t.rows ++ [bottomRule.draw widths]

/-- The text of a table, without a final line break. -/
def render (t : Table) : String := "\n".intercalate t.lines

end Table

end LiveSchema
