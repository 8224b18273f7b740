import LookmlProject.Lint.Linter
import LookmlProject.Upload

/-!
# A lint of a project

The patterns of the settings are expanded one after the other, and each document that they find is
judged.  Rows are gathered over all patterns; those without a pattern get the one at hand when its
last document is done.  The rows then go into the reports that the settings ask for: CSV files, and
tables of a warehouse.

The order in which an expansion tells its paths is not promised, and the rows follow it.  A lint is
therefore defined for any expansion (`collectWith`, `runWith`); `collect` and `run` are those of the
expansion in the order of the alphabet.
-/

namespace LookmlProject.Lint

open Lookml

/-- The rows of a lint. -/
structure Rows where
  documents : List DocumentRow
  fields : List FieldRow

namespace Rows

/-- No rows. -/
def empty : Rows := ⟨[], []⟩

/-- The rows of one lint after those of another. -/
def append (first second : Rows) : Rows :=
  ⟨first.documents ++ second.documents, first.fields ++ second.fields⟩

/-- The rows with a pattern for those that say none yet. -/
def tag (glob : String) (rows : Rows) : Rows :=
  ⟨rows.documents.map (DocumentRow.tag glob), rows.fields.map (FieldRow.tag glob)⟩

end Rows

/-- The results of a trail that was not stopped. -/
def complete {α : Type} (trail : Trail α) : Except Fault (List α) :=
  match trail.fault with
  | none => .ok trail.steps
  | some fault => .error fault

namespace Linter

/-- The rows so far, and those about the document at a path. -/
def lintPath (linter : Linter) (store : Store) (rows : Rows) (path : String) :
    Except Fault Rows := do
  let file := Value.text (Store.baseName path)
  let doc ← Document.load store path
  let documents ← complete (linter.judgeDocument doc file)
  let fields ← complete (linter.judgeView doc file)
  return rows.append ⟨documents, fields⟩

/-- The rows so far, and those about the documents that a pattern finds.  Rows learn their pattern
when all its documents are judged. -/
def lintGlob (linter : Linter) (expand : Glob.Expansion) (store : Store) (rows : Rows)
    (glob : Value) : Except Fault Rows := do
  let glob ← glob.asText
  let rows ← (← expand store glob).foldlM (linter.lintPath store) rows
  return rows.tag glob

/-- The rows about the documents that some patterns find. -/
def lintGlobs (linter : Linter) (expand : Glob.Expansion) (store : Store) (globs : List Value) :
    Except Fault Rows :=
  globs.foldlM (linter.lintGlob expand store) .empty

/-- The rows of a lint that expands its patterns in a given way.  The rule about orphans cannot take
part in it. -/
def collectWith (linter : Linter) (expand : Glob.Expansion) (store : Store) :
    Except Fault Rows := do
  if (← linter.otherRules).any (Value.isText "NoOrphansRule") then throw .wrongShape
  else linter.lintGlobs expand store (← (← linter.settings.lookup "infile_globs").elements)

/-- The rows of a lint. -/
def collect (linter : Linter) (store : Store) : Except Fault Rows :=
  linter.collectWith Glob.expand store

end Linter

/-- The cells of a column for the origin of rows.  A list has a cell for each row, a record none that
fits, and any other value is the cell of every row. -/
def originCells (origin : Value) (count : Nat) : Except Fault (List Value) :=
  match origin with
  | .list items => if items.length = count then .ok (Table.unifyColumn items) else .error .badValue
  | .record _ => .ok (List.replicate count Table.missing)
  | _ => .ok (List.replicate count origin)

/-- The columns of a report with time and origin. -/
def reportTable (records : List Value.Fields) (time : String) (origin : Value) :
    Except Fault Table := do
  let cells ← originCells origin records.length
  return ((Table.ofRecords records).addColumn "time"
    (List.replicate records.length (.text time))).addColumn "repo" cells

/-- Some columns of a table, in the given order. -/
def selectColumns (table : Table) (columns : List String) : Table :=
  { columns, rows := table.rows.map fun row =>
      columns.map fun c => ((table.columns.zip row).lookup c).getD .null }

/-- The settings of one of the two reports. -/
structure ReportKind where
  fileKey : String
  tableKey : String
  columns : List String

/-- The report about documents. -/
def documentReport : ReportKind :=
  ⟨"file_output", "file_destination_table", ["time", "file", "rule", "passed", "repo", "glob"]⟩

/-- The report about fields. -/
def fieldReport : ReportKind :=
  ⟨"field_output", "field_destination_table",
    ["time", "file", "rule", "type", "fieldname", "passed", "repo", "glob"]⟩

/-- Writes a report to the CSV file of the settings; without a file name nothing is written. -/
def writeReport (settings : Value) (kind : ReportKind) (report : Table) : Delivery Unit := do
  let path ← Delivery.lift do
    (← (← settings.lookup "output").lookup "csv").lookup kind.fileKey
  match path with
  | .null => return ()
  | .text path => Delivery.save path (selectColumns report kind.columns)
  | _ => throw .badValue

/-- Whether the settings ask for a kind of output. -/
def asksFor (settings : Value) (key : String) : Except Fault Bool := do
  (← settings.lookup "output").has key

/-- Delivers a report, if it has rows, to every place that the settings ask for. -/
def deliver (settings : Value) (time : String) (kind : ReportKind) (records : List Value.Fields) :
    Delivery Unit := do
  if records.isEmpty then return ()
  else
    let repo ← Delivery.lift do (← settings.lookup "git").lookup "url"
    let report ← Delivery.lift (reportTable records time repo)
    if ← Delivery.lift (asksFor settings "csv") then writeReport settings kind report
    if ← Delivery.lift (asksFor settings "simple_biquery") then
      Upload.direct report settings (.text "append")
    if ← Delivery.lift (asksFor settings "bigquery") then
      Upload.staged report settings (.text kind.tableKey)

namespace Linter

/-- Lints a project at a time, with patterns that are expanded in a given way, and delivers the
reports. -/
def runWith (linter : Linter) (expand : Glob.Expansion) (time : String) : Delivery Rows := do
  let rows ← Delivery.lift (linter.collectWith expand (← get).store)
  let _ ← Delivery.lift (asksFor linter.settings "simple_biquery")
  let _ ← Delivery.lift (asksFor linter.settings "bigquery")
  deliver linter.settings time documentReport (rows.documents.map DocumentRow.fields)
  deliver linter.settings time fieldReport (rows.fields.map FieldRow.fields)
  return rows

/-- Lints a project at a time and delivers the reports. -/
def run (linter : Linter) (time : String) : Delivery Rows :=
  linter.runWith Glob.expand time

end Linter

end LookmlProject.Lint
