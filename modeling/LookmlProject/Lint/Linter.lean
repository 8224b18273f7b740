import LookmlProject.Lint.Row
import LookmlProject.Rule.DocumentRules
import LookmlProject.Rule.FieldRules
import LookmlProject.Rule.Registry
import LookmlProject.Store.Glob
import LookmlProject.Trail

/-!
# The linter

A linter has rules about documents and rules about fields, which its settings choose from a registry.
It judges documents and the fields of their first view.

Judging the fields of a view marks each with its kind.  The marks stay in the view, so the functions
that judge fields give back the view as it is afterwards.
-/

namespace LookmlProject.Lint

open Lookml

/-- Settings and the rules that they choose. -/
structure Linter where
  settings : Value
  documentRules : List Rule
  fieldRules : List Rule

/-- The rules that a list of settings chooses. -/
def chooseRules (registry : Registry) : List Value → Except Fault (List Rule)
  | [] => .ok []
  | entry :: rest => do
    if (← entry.lookup "run").truthy then
      let rule ← registry.instantiate (← entry.lookup "name") entry
      return rule :: (← chooseRules registry rest)
    else chooseRules registry rest

/-- The rules under a key of the settings. -/
def rulesUnder (registry : Registry) (settings : Value) (key : String) :
    Except Fault (List Rule) := do
  let rules ← settings.lookup "rules"
  if ← rules.has key then chooseRules registry (← (← rules.lookup key).elements)
  else return []

namespace Linter

/-- The linter that settings describe. -/
def create (registry : Registry) (settings : Value) : Except Fault Linter := do
  let documentRules ← rulesUnder registry settings "file_level_rules"
  let fieldRules ← rulesUnder registry settings "field_level_rules"
  return ⟨settings, documentRules, fieldRules⟩

/-- What one rule makes of a document. -/
def documentRow (doc : Document) (file : Value) (rule : Rule) : Trail DocumentRow :=
  Trail.need (rule.onDocument doc) fun
    | .irrelevant => .nil
    | .judged passed => .of [⟨file, rule.name, passed, none⟩]

/-- What the rules make of a document. -/
def judgeDocument (linter : Linter) (doc : Document) (file : Value) : Trail DocumentRow :=
  Trail.flatMap (documentRow doc file) linter.documentRules

/-- What one rule makes of a field. -/
def fieldRow (parameters : Value.Fields) (kind file : Value) (rule : Rule) : Trail FieldRow :=
  Trail.need (rule.onField ⟨parameters⟩) fun
    | .irrelevant => .nil
    | .judged passed =>
      Trail.need ((Value.record parameters).lookup "name") fun name =>
        .of [⟨file, rule.name, passed, kind, name, none⟩]

/-- A field with the mark of its kind. -/
def mark (kind : Value) (parameters : Value.Fields) : Value.Fields :=
  Value.Fields.set parameters "_type" kind

/-- What the rules make of the fields in a list, and the list with its marks. -/
def judgeItems (rules : List Rule) (kind file : Value) :
    List Value → List Value × Trail FieldRow
  | [] => ([], .nil)
  | .record parameters :: rest =>
    let marked := mark kind parameters
    let trail := Trail.flatMap (fieldRow marked kind file) rules
    match trail.fault with
    | some _ => (.record marked :: rest, trail)
    | none =>
      let others := judgeItems rules kind file rest
      (.record marked :: others.1, trail ++ others.2)
  | item :: rest => (item :: rest, .stop .wrongShape)

/-- A view as it is afterwards, and the rows about its fields. -/
structure FieldPass where
  view : Value
  trail : Trail FieldRow

/-- What the rules make of the fields of a view under a key. -/
def judgeFields (linter : Linter) (view kind key file : Value) : FieldPass :=
  match view.holds key with
  | .error fault => ⟨view, .stop fault⟩
  | .ok false => ⟨view, .nil⟩
  | .ok true =>
    match view, key with
    | .record fields, .text name =>
      match (Value.record fields).lookup name with
      | .ok (.list items) =>
        let judged := judgeItems linter.fieldRules kind file items
        ⟨.record (Value.Fields.set fields name (.list judged.1)), judged.2⟩
      | .ok found =>
        match found.elements with
        | .ok [] => ⟨view, .nil⟩
        | _ => ⟨view, .stop .wrongShape⟩
      | .error fault => ⟨view, .stop fault⟩
    | _, _ => ⟨view, .stop .wrongShape⟩

/-- The kinds of fields, in the order in which they are judged. -/
def fieldKinds : List (String × String) := [
  ("dimension", "dimensions"), ("dimension_group", "dimension_groups"), ("measure", "measures")]

/-- What the rules make of the fields of a view, kind by kind. -/
def judgeKinds (linter : Linter) (file : Value) :
    Value → List (String × String) → Trail FieldRow
  | _, [] => .nil
  | view, (kind, key) :: rest =>
    let pass := linter.judgeFields view (.text kind) (.text key) file
    pass.trail ++ linter.judgeKinds file pass.view rest

/-- What the rules make of the fields in the first view of a document. -/
def judgeView (linter : Linter) (doc : Document) (file : Value) : Trail FieldRow :=
  if doc.hasViews then
    Trail.need (doc.views.nth 0) fun view => linter.judgeKinds file view fieldKinds
  else .nil

/-- The names of the other rules that the settings ask for, each once. -/
def otherRules (linter : Linter) : Except Fault (List Value) := do
  let rules ← linter.settings.lookup "rules"
  if ← rules.has "other_rules" then
    (← (← rules.lookup "other_rules").elements).foldlM (fun found entry => do
      if ← entry.has "name" then
        if ← entry.has "run" then
          if (← entry.lookup "run").truthy then
            let name ← (← entry.lookup "name").asKey
            return if found.contains name then found else found ++ [name]
          else return found
        else return found
      else return found) []
  else return []

end Linter

end LookmlProject.Lint
