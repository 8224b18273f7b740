import LookmlProject.Csv.Table
import LookmlProject.Value.Display

/-!
# Tables as CSV

The header and each row stand on a line of their own.  A cell with a comma, a double quote or a line
feed stands in double quotes, and so does an empty cell that is alone on its line.
-/

namespace LookmlProject.Csv

/-- The text of a cell: nothing for null and for a missing cell. -/
def cellText : Value → List Char
  | .null => []
  | .float x => if x.isNaN then [] else (Value.display (.float x)).toList
  | v => v.display.toList

/-- Whether a cell needs quotes. -/
def needsQuotes (cs : List Char) : Bool := cs.any fun c => c == ',' || c == '"' || c == '\n'

/-- A text in double quotes, which stand twice inside. -/
def quote (cs : List Char) : List Char :=
  '"' :: cs.flatMap (fun c => if c = '"' then ['"', '"'] else [c]) ++ ['"']

/-- A cell of a row with several cells. -/
def cell (cs : List Char) : List Char := if needsQuotes cs then quote cs else cs

/-- A line of cells. -/
def line : List (List Char) → List Char
  | [[]] => ['"', '"', '\n']
  | cells => Text.joinWith [','] (cells.map cell) ++ ['\n']

/-- A table as a CSV text. -/
def render (table : Table) : String :=
  String.ofList <| line (table.columns.map String.toList) ++
    table.rows.flatMap fun row => line (row.map cellText)

end LookmlProject.Csv
