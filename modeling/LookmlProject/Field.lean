import LookmlProject.Value.Access

/-!
# Fields

A field is a dimension, a dimension group or a measure of a view, with its parameters.  Besides its
parameters it answers four questions: the three about its kind and the one whether it has a
parameter.  A parameter named like a question takes the question's place, so that the question can
no longer be asked; a parameter `json_data` takes the place of the parameters that `hasKey` looks
at.
-/

namespace LookmlProject

/-- A field with its parameters. -/
structure Field where
  parameters : Value.Fields

namespace Field

/-- The field that a value describes: a record by its entries, and any other value by the entries
that it adds to a record, of which it is then the searched part. -/
def ofValue (v : Value) : Except Fault Field :=
  match v with
  | .record fields => .ok ⟨fields⟩
  | _ => do
    let named := (← v.entries).filterMap fun e =>
      match e.1 with
      | .text key => some (key, e.2)
      | _ => none
    return ⟨Value.Fields.ofEntries (("json_data", v) :: named)⟩

/-- A parameter of the field. -/
def get (field : Field) (key : String) : Except Fault Value :=
  match Value.Fields.get? field.parameters key with
  | some v => .ok v
  | none => .error .noMember

/-- Asks a question by name. -/
def ask (field : Field) (question : String) (answer : Except Fault Bool) : Except Fault Bool :=
  if Value.Fields.has field.parameters question then .error .wrongShape else answer

/-- Whether the kind of the field is the given one. -/
def kindIs (field : Field) (kind : String) : Except Fault Bool :=
  (Value.isText kind) <$> field.get "_type"

/-- Whether the field is a dimension. -/
def isDimension (field : Field) : Except Fault Bool :=
  field.ask "is_dimension" (field.kindIs "dimension")

/-- Whether the field is a dimension group. -/
def isDimensionGroup (field : Field) : Except Fault Bool :=
  field.ask "is_dimension_group" (field.kindIs "dimension_group")

/-- Whether the field is a measure. -/
def isMeasure (field : Field) : Except Fault Bool :=
  field.ask "is_measure" (field.kindIs "measure")

/-- What `hasKey` looks at. -/
def searched (field : Field) : Value :=
  (Value.Fields.get? field.parameters "json_data").getD (.record field.parameters)

/-- Whether the field has something among its parameters. -/
def holds (field : Field) (key : Value) : Except Fault Bool :=
  field.ask "has_key" (field.searched.holds key)

/-- Whether the field has a parameter. -/
def hasKey (field : Field) (key : String) : Except Fault Bool := field.holds (.text key)

/-- Whether the field is of one of the three kinds. -/
def isAny (field : Field) : Except Fault Bool := do
  if ← field.isDimension then return true
  else if ← field.isDimensionGroup then return true
  else field.isMeasure

end Field

end LookmlProject
