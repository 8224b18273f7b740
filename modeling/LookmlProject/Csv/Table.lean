import LookmlProject.Value.Basic

/-!
# Tables

A table has named columns and rows with one cell for each column.  Its rows may have labels, each of
one or more values; then rows with equal labels are taken for one another.
-/

namespace LookmlProject

/-- Named columns and rows of cells.  There is a label for each row, or none at all. -/
structure Table where
  columns : List String
  rows : List (List Value)
  labels : List (List Value) := []

namespace Table

/-- A cell that is missing. -/
def missing : Value := .float (0.0 / 0.0)

/-- A whole or floating-point number. -/
def isNumber : Value → Bool
  | .int _ | .float _ => true
  | _ => false

/-- A whole number. -/
def isWhole : Value → Bool
  | .int _ => true
  | _ => false

/-- The absence of a value. -/
def isNull : Value → Bool
  | .null => true
  | _ => false

/-- A number as a floating-point number, and null as a missing cell. -/
def toFloat : Value → Value
  | .int n => .float (Float.ofInt n)
  | .null => missing
  | v => v

/-- Whether whole numbers do not fit into one kind of 64-bit numbers: one is too large or too small
for any, or some are negative and others need all bits.  Behind a null, numbers are not looked at.
The two flags say whether there was a negative one and a wide one before. -/
def overflows : Bool → Bool → List Value → Bool
  | _, _, [] => false
  | negative, wide, cell :: rest =>
    match cell with
    | .null => false
    | .int n =>
      let negative := negative || n < 0
      let wide := wide || Int.pow 2 63 ≤ n
      (negative && wide) || Int.pow 2 64 ≤ n || n < -Int.pow 2 63 || overflows negative wide rest
    | _ => overflows negative wide rest

/-- The cells of a column of one kind: a column of numbers in which some cell is null or not whole
holds floating-point numbers only, unless its whole numbers overflow. -/
def unifyColumn (cells : List Value) : List Value :=
  if cells.all (fun c => isNumber c || isNull c) && cells.any isNumber && !cells.all isWhole &&
      !overflows false false cells then
    cells.map toFloat
  else cells

/-- Rows from columns. -/
def transpose (count : Nat) (columns : List (List Value)) : List (List Value) :=
  (List.range count).map fun i => columns.map fun column => column.getD i .null

/-- Whether a column has a whole number that takes all 64 bits. -/
def isWide (cells : List Value) : Bool :=
  cells.any fun c => match c with
    | .int n => Int.pow 2 63 ≤ n
    | _ => false

/-- The rows as a grid of one kind: if all columns are of numbers, and not all of one kind of whole
numbers, all cells are floating-point numbers. -/
def grid (table : Table) : List (List Value) :=
  let columns := (List.range table.columns.length).map fun i =>
    table.rows.map fun row => row.getD i .null
  let plain := columns.all (List.all · isWhole) && (columns.all isWide || !columns.any isWide)
  if columns.all (List.all · isNumber) && !plain then table.rows.map (List.map toFloat)
  else table.rows

/-- The place of a column. -/
def column? (table : Table) (name : String) : Option Nat := table.columns.idxOf? name

/-- A table with one more column. -/
def addColumn (table : Table) (name : String) (cells : List Value) : Table :=
  { table with
    columns := table.columns ++ [name]
    rows := table.rows.zipWith (fun row cell => row ++ [cell]) cells }

/-- The table of records that have the keys of the first in common. -/
def ofRecords (records : List Value.Fields) : Table :=
  let columns := (records.head?.getD []).map (·.1)
  let cells := columns.map fun c =>
    unifyColumn (records.map fun r => (Value.Fields.get? r c).getD .null)
  { columns, rows := transpose records.length cells }

end Table

end LookmlProject
