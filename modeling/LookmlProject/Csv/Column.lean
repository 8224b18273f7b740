import LookmlProject.Csv.Table
import LookmlProject.Decimal.Scan

/-!
# Columns of a CSV text

The cells of a column are read alike.  A column holds whole numbers, floating-point numbers, truth
values or texts: the first of these that all its cells can be read as, where missing cells do not
count.  Whole numbers with a missing cell among them become floating-point numbers.

Whole numbers have 64 bits.  A column with a number that does not fit is text.  If it is one that
would fit without a sign, but the column has negative or missing cells, then no cell of the column
counts as missing.
-/

namespace LookmlProject.Csv

/-- The words for a missing cell. -/
def missingWords : List String :=
  ["", "#N/A", "#N/A N/A", "#NA", "-1.#IND", "-1.#QNAN", "-NaN", "-nan", "1.#IND", "1.#QNAN",
    "<NA>", "N/A", "NA", "NULL", "NaN", "None", "n/a", "nan", "null"]

/-- A cell as it was written, unless it is missing. -/
def present? (cell : List Char) : Option (List Char) :=
  if missingWords.contains (String.ofList cell) then none else some cell

/-- The cells of a column; a missing one is none. -/
abbrev Cells := List (Option (List Char))

/-- What a column comes to when it is read as whole numbers. -/
inductive Wholes where
  /-- All cells are whole numbers. -/
  | fit (numbers : List (Option Int))
  /-- Some cell is no whole number. -/
  | misfit
  /-- Some cell is too large a number, so that the column is text. -/
  | tooLarge
  /-- Some cells need all bits and others are negative or missing, so that all cells are text. -/
  | conflict
deriving Repr

/-- Reads a column of whole numbers from `low` to `high`, up to the first cell that is none. -/
def readWholes (low high : Int) : Cells → Wholes
  | [] => .fit []
  | cell :: rest =>
    let add (n : Option Int) : Wholes :=
      match readWholes low high rest with
      | .fit ns => .fit (n :: ns)
      | other => other
    match cell with
    | none => add none
    | some cs =>
      match Decimal.scanWhole low high cs with
      | .whole n => add (some n)
      | .beyond => .tooLarge
      | .other => .misfit

/-- Whether a cell starts with a minus sign. -/
def isNegative (cs : List Char) : Bool := (cs.dropWhile Decimal.isAsciiBlank).head? == some '-'

/-- Reads a column of whole numbers of at most 64 bits: signed ones, or unsigned ones where no cell
is negative or missing. -/
def wholes (cells : Cells) : Wholes :=
  match readWholes (-Int.pow 2 63) (Int.pow 2 63 - 1) cells with
  | .tooLarge =>
    let marks := cells.filterMap fun cell => cell.filter fun cs => !isNegative cs
    match readWholes 0 (Int.pow 2 64 - 1) (marks.map some) with
    | .fit ns =>
      if marks.length = cells.length then .fit ns
      else if ns.any fun n => n.any (Int.pow 2 63 ≤ ·) then .conflict
      else .tooLarge
    | other => other
  | other => other

/-- A cell that may be missing. -/
def orMissing {α : Type} (toValue : α → Value) : Option α → Value
  | none => Table.missing
  | some a => toValue a

/-- Reads the cells that are there, unless one of them cannot be read. -/
def readAll? {α : Type} (read : List Char → Option α) : Cells → Option (List (Option α))
  | [] => some []
  | none :: rest => (none :: ·) <$> readAll? read rest
  | some cs :: rest => do
    let a ← read cs
    let more ← readAll? read rest
    return some a :: more

/-- Reads a truth value; the case of its letters does not matter. -/
def readTruth (cs : List Char) : Option Bool :=
  if Decimal.sameLetters cs "true" then some true
  else if Decimal.sameLetters cs "false" then some false
  else none

/-- A column of texts. -/
def textColumn (cells : Cells) : List Value :=
  cells.map (orMissing fun cs => .text (String.ofList cs))

/-- The values of a column that holds no whole numbers. -/
def otherColumn (cells : Cells) : List Value :=
  match readAll? Decimal.scanNumber cells with
  | some xs => xs.map (orMissing .float)
  | none =>
    match readAll? readTruth cells with
    | some bs => bs.map (orMissing .bool)
    | none => textColumn cells

/-- A whole number among missing cells.  The lowest one is taken for a missing cell itself. -/
def besideMissing (n : Int) : Value :=
  let x := Float.ofInt n
  if x == Float.ofInt (-Int.pow 2 63) then Table.missing else .float x

/-- The values of a column. -/
def column (written : List (List Char)) : List Value :=
  let cells := written.map present?
  match wholes cells with
  | .fit ns =>
    if cells.all Option.isSome then ns.map (orMissing .int) else ns.map (orMissing besideMissing)
  | .misfit => otherColumn cells
  | .tooLarge => textColumn cells
  | .conflict => textColumn (written.map some)

/-- The labels in a column.  Missing labels are alike beside texts and truth values, and differ from
each other beside numbers. -/
def labelColumn (written : List (List Char)) : List Value :=
  let cells := column written
  let isWord : Value → Bool
    | .text _ | .bool _ => true
    | _ => false
  if cells.any isWord then cells.map fun cell => if isWord cell then cell else .null else cells

end LookmlProject.Csv
