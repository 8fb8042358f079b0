import PathCatalog.Table
import PathCatalog.Text.Blank

namespace PathCatalog.Table

def header (table : Table) : List String :=
  "path" :: table.columns

/-- A row is printed with its path first. -/
def printedCells (row : Row) : List String :=
  row.path :: row.values

/-- Each width is at least the number of code points of its cell. -/
def widen : List Nat → List String → List Nat
  | width :: widths, cell :: cells => max width cell.length :: widen widths cells
  | widths, [] => widths
  | [], _ => []

/-- The widths that hold the header and every row. -/
def widths (table : Table) : List Nat :=
  (table.rows.map printedCells).foldl widen (table.header.map String.length)

/-- Cells fill their widths, two blanks stand between them and blanks at the end are left out. -/
def line? (widths : List Nat) (cells : List String) : Option String := do
  let filled ← (cells.zip widths).mapM fun cell => Text.padded? cell.2 cell.1
  return String.ofList (Text.trimEnd (Text.joined "  " filled).toList)

/-- The lines of a table. -/
def printedLines? (table : Table) : Option (List String) :=
  (table.header :: table.rows.map printedCells).mapM (line? table.widths)

/-- The printed form; a newline ends every line. -/
def display? (table : Table) : Option String := do
  let lines ← table.printedLines?
  return String.join (lines.map (· ++ "\n"))

end PathCatalog.Table
