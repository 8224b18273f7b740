import LookmlProject.Definitions.Source
import LookmlProject.Edit.Request
import LookmlProject.Keyed
import LookmlProject.Lookml.Document
import LookmlProject.Store.Journal

/-!
# Updating descriptions

A view document is updated from a table of definitions: for each row that is about the document,
the description of the field that it names becomes its definition.  A field is looked up in the
document as it was read, so that rows do not see each other's edits, and the file is written once,
after all rows.

- `findDescription` is the description of a field and whether it has one;
- `describe` is the edit that a row asks for;
- `updated` gives the lines after all rows;
- `run` is the store with these lines written;
- `amend` is the same as work on files, step by step, and `perform` fetches the definitions for it.
-/

namespace LookmlProject.Update

open Lookml

/-- The kinds of fields that have descriptions. -/
def fieldKinds : List String := ["dimension", "dimension_group", "measure"]

/-- The first field with the given name. -/
def fieldNamed (name : Value) : List Value → Except Fault (Option Value)
  | [] => .ok none
  | field :: rest => do
    if (← field.lookup "name") == name then return some field else fieldNamed name rest

/-- The description of a field, and whether it has one. -/
def findDescription (doc : Document) (kind name : Value) : Except Fault (Value × Bool) := do
  if doc.kind ≠ .view then throw (.notView doc.kind.name)
  let count ← doc.views.length
  if 1 < count then throw (.severalViews count)
  let view ← doc.views.nth 0
  let kindName := kind.display
  unless fieldKinds.any (kind.isText ·) do throw (.unknownFieldKind kindName)
  let plural := kindName ++ "s"
  let missing := Fault.fieldMissing kindName name.display
  unless ← view.has plural do throw missing
  match ← fieldNamed name (← (← view.lookup plural).elements) with
  | none => throw missing
  | some field =>
    if ← field.has "description" then return (← field.lookup "description", true)
    else return (.text "", false)

/-- A row of definitions by column. -/
abbrev Row := Value.Fields

/-- The cell of a row. -/
def cell (row : Row) (column : String) : Except Fault Value := (Value.record row).lookup column

/-- The number of lines of a description. -/
def lineCount : Value → Except Fault Nat
  | .text s => .ok (Text.splitChar '\n' s.toList).length
  | _ => .error .noMember

/-- Whether a description is the given definition already. -/
def isCurrent (description definition : Value) : Bool :=
  description == definition

/-- The lines after the edit that a row asks for. -/
def describe (doc : Document) (lines : List Edit.Line) (row : Row) :
    Except Fault (List Edit.Line) := do
  let kind ← cell row "type"
  let name ← cell row "name"
  let (description, present) ← findDescription doc kind name
  let count ← lineCount description
  let definition ← cell row "definition"
  if isCurrent description definition then return lines
  else
    return Edit.modify count kind.display.toList name.display.toList definition.display.toList
      present lines

/-- The rows of a table that are about the file of the given name, in order.  Of those with one label
the last stands at the place of the first. -/
def rowsAbout (table : Table) (file : String) : Except Fault (List Row) :=
  match table.column? "file" with
  | none => .error .noMember
  | some place =>
    let about (row : List Value) : Bool := (row.getD place .null).isText file
    let rows :=
      if table.labels.isEmpty then table.rows.filter about
      else
        let labelled := (table.labels.zip table.rows).filter fun r => about r.2
        (labelled.foldl (fun kept r => Keyed.set kept r.1 r.2) []).map (·.2)
    .ok (rows.map fun row => table.columns.zip row)

/-- The name under which a file stands in the definitions: its path, or its base name if the
settings ask for that. -/
def nameInTable (settings : Value) (path : String) : Except Fault String := do
  if ← settings.has "use_basename" then
    if (← settings.lookup "use_basename").truthy then return Store.baseName path
  return path

/-- The rows of definitions that are about the file of the given name.  An answer of a warehouse
cannot be searched. -/
def rowsIn (definitions : Definitions.Yield) (file : String) : Except Fault (List Row) :=
  match definitions with
  | .table table => rowsAbout table file
  | .query _ => .error .wrongShape

/-- The lines of a document after all rows. -/
def updated (settings : Value) (definitions : Definitions.Yield) (store : Store) (infile : Value) :
    Except Fault (List Edit.Line) := do
  let path ← infile.asPath
  let lines ← Edit.readLines store path
  let doc ← Document.load store path
  let rows ← rowsIn definitions (← nameInTable settings path)
  rows.foldlM (describe doc) lines

/-- Updates a document and writes it to a file. -/
def run (settings : Value) (store : Store) (database : Option Definitions.Database)
    (infile outfile : Value) : Except Fault Store := do
  let definitions ← Definitions.ofSettings settings store database
  let lines ← updated settings definitions store infile
  store.write (← outfile.asTarget) (Edit.join lines)

/-- Goes through the rows of definitions that are about a document, one by one, and writes its lines
to a file after the last. -/
def amend (settings : Value) (definitions : Definitions.Yield) (infile outfile : Value) :
    Work Unit := do
  let path ← Work.lift infile.asPath
  let lines ← Work.look (Edit.readLines · path)
  let doc ← Work.look (Document.load · path)
  let file ← Work.lift (nameInTable settings path)
  let rows ← Work.lift (rowsIn definitions file)
  let after ← rows.foldlM (fun lines row => Work.lift (describe doc lines row)) lines
  let target ← Work.lift outfile.asTarget
  Work.write target (Edit.join after)

/-- Fetches the definitions and amends a document. -/
def perform (settings : Value) (database : Option Definitions.Database) (infile outfile : Value) :
    Work Unit := do
  let definitions ← Work.look (Definitions.ofSettings settings · database)
  amend settings definitions infile outfile

end LookmlProject.Update
