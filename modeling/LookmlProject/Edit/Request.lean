import LookmlProject.Edit.Lines
import LookmlProject.Store.Basic
import LookmlProject.Text.Lines
import LookmlProject.Value.Access
import LookmlProject.Value.Display

/-!
# Requests for edits

An edit may be asked for with values of any shape.  The kind of a field has to be a text as soon as
a line is looked at, and the number of lines has to be whole as soon as an old description is met; a
name that is no text is the name of no field.
-/

namespace LookmlProject.Edit

/-- Reads the lines of a file. -/
def readLines (store : Store) (path : String) : Except Fault (List Line) :=
  if store.contains path then do
    let text ← store.read path
    return Text.lines (Text.unifyNewlines text.toList)
  else .error (.missingFile path)

/-- A number of lines; a negative one counts as none. -/
def lineCount : Value → Except Fault Nat
  | .int n => .ok n.toNat
  | .bool b => .ok b.toNat
  | _ => .error .wrongShape

/-- Whether a line is the header of a field. -/
def headerRequest (line kind name : Value) : Except Fault Bool := do
  let kind ← kind.asText
  match line, name with
  | .text l, .text n => return isHeader kind.toList n.toList l.toList
  | .text _, _ => return false
  | _, _ => .error .noMember

/-- Adds a description below each header of a field. -/
def addRequest (kind name text : Value) (lines : List Line) : Except Fault (List Line) :=
  if lines.isEmpty then .ok lines
  else do
    let kind ← kind.asText
    match name with
    | .text n => return add kind.toList n.toList text.display.toList lines
    | _ => return lines

/-- Puts a description in place of the old one. -/
def substituteRequest (count kind name text : Value) (lines : List Line) :
    Except Fault (List Line) :=
  if lines.isEmpty then .ok lines
  else do
    let kind ← kind.asText
    match name with
    | .text n =>
      if meetsDescription kind.toList n.toList lines then
        let count ← lineCount count
        return substitute count kind.toList n.toList text.display.toList lines
      else return lines
    | _ => return lines

/-- Describes a field, which has a description already if `present` is true. -/
def modifyRequest (count kind name text present : Value) (lines : List Line) :
    Except Fault (List Line) :=
  if present.truthy then substituteRequest count kind name text lines
  else addRequest kind name text lines

end LookmlProject.Edit
