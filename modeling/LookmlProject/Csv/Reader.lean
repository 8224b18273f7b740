import LookmlProject.Csv.Column
import LookmlProject.Csv.Records

/-!
# Tables from CSV

The first record names the columns and the others are rows.  A row may be short, and its last cells
are then missing.  If the first row is longer than the header, its surplus fields in front are row
labels, in every row; no later row may be longer than that.
-/

namespace LookmlProject.Csv

/-- The names of columns with the number of times that each has been given. -/
abbrev NameCounts := List (String × Nat)

/-- How often a name has been given. -/
def NameCounts.of (counts : NameCounts) (name : String) : Nat := (counts.lookup name).getD 0

/-- A name with a number behind it that no column bears yet, counting from `start`. -/
def freeNumber (header : List String) (name : String) (start : Nat) : Nat :=
  let taken (n : Nat) : Bool := header.contains (name ++ "." ++ toString n)
  (((List.range (header.length + 1)).map (start + ·)).find? fun n => !taken n).getD start

/-- Gives the column at a position its name: a name that has been given gets a number behind it. -/
def settleName (state : List String × NameCounts) (position : Nat) : List String × NameCounts :=
  let (header, counts) := state
  let name := header.getD position ""
  match counts.of name with
  | 0 => (header, (name, 1) :: counts)
  | count =>
    let n := freeNumber header name count
    let numbered := name ++ "." ++ toString n
    (header.set position numbered, (numbered, 1) :: (name, n + 1) :: counts)

/-- The names of columns: an empty one is told by its position, and no two are alike. -/
def columnNames (fields : List (List Char)) : List String :=
  let positions := List.range fields.length
  let unnamed (i : Nat) : Bool := (fields.getD i []).isEmpty
  let header := positions.map fun i =>
    if unnamed i then "Unnamed: " ++ toString i else String.ofList (fields.getD i [])
  let order := positions.filter (fun i => !unnamed i) ++ positions.filter unnamed
  (order.foldl settleName (header, [])).1

/-- The table of a CSV text. -/
def parse (cs : List Char) : Except Fault Table := do
  match ← records cs with
  | [] => .error .emptyTable
  | fields :: rows =>
    let names := columnNames fields
    let labels := (rows.head?.getD []).length - fields.length
    if (rows.drop 1).any fun row => labels + fields.length < row.length then .error .badTable
    else
      let written (i : Nat) : List (List Char) := rows.map fun row => row.getD i []
      let columns := (List.range names.length).map fun i => column (written (labels + i))
      let labelled := (List.range labels).map fun i => labelColumn (written i)
      return {
        columns := names
        rows := Table.transpose rows.length columns
        labels := if labels = 0 then [] else Table.transpose rows.length labelled }

end LookmlProject.Csv
