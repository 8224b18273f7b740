import LookmlProject.Csv.Table
import LookmlProject.Value.Access

/-!
# Rows of a lint

A row says what one rule made of one document or one field.  It may say by which pattern the
document was found.
-/

namespace LookmlProject.Lint

/-- What a rule made of a document. -/
structure DocumentRow where
  file : Value
  rule : String
  passed : Bool
  glob : Option String

/-- What a rule made of a field. -/
structure FieldRow where
  file : Value
  rule : String
  passed : Bool
  kind : Value
  field : Value
  glob : Option String

/-- The row with a pattern, unless it says one already. -/
def DocumentRow.tag (glob : String) (row : DocumentRow) : DocumentRow :=
  { row with glob := row.glob.or (some glob) }

/-- The row with a pattern, unless it says one already. -/
def FieldRow.tag (glob : String) (row : FieldRow) : FieldRow :=
  { row with glob := row.glob.or (some glob) }

/-- A verdict as a number. -/
def passedValue (passed : Bool) : Value := .int (if passed then 1 else 0)

/-- The pattern of a row, if it says one. -/
def globEntry : Option String → Value.Fields
  | none => []
  | some g => [("glob", .text g)]

/-- A row as a record. -/
def DocumentRow.fields (row : DocumentRow) : Value.Fields :=
  [("file", row.file), ("rule", .text row.rule), ("passed", passedValue row.passed)] ++
    globEntry row.glob

/-- A row as a record. -/
def FieldRow.fields (row : FieldRow) : Value.Fields :=
  [("file", row.file), ("rule", .text row.rule), ("passed", passedValue row.passed),
    ("type", row.kind), ("fieldname", row.field)] ++ globEntry row.glob

end LookmlProject.Lint
