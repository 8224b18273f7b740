import LookmlProject.Field
import LookmlProject.Rule.Basic
import LookmlProject.Text.Case.Lower
import LookmlProject.Text.Case.Upper
import LookmlProject.Value.Display

/-!
# Rules about fields

* Every field has a description that is not empty.
* Every measure has fields to drill down to.
* The name of a yes-no dimension starts with `is_`.
* The name of a count ends with `_count`.
* The name of a field is not all in capitals.
* Neither name nor description of a field has a phrase of the lexicon; the phrases are put into small
  letters first.
-/

namespace LookmlProject.Rule

/-- A text parameter on which a text operation is run. -/
def textOf (v : Value) : Except Fault (List Char) :=
  match v with
  | .text s => .ok s.toList
  | _ => .error .noMember

/-- Whether a field has a description. -/
def description (field : Field) : Except Fault Verdict := do
  if ← field.isAny then
    if ← field.hasKey "description" then
      let text ← field.get "description"
      return .judged (!text.isText "")
    else return .judged false
  else return .irrelevant

/-- Whether a measure has fields to drill down to. -/
def drillDown (field : Field) : Except Fault Verdict := do
  if ← field.isMeasure then
    if ← field.hasKey "drill_fields" then
      let targets ← field.get "drill_fields"
      return .judged (!targets.isEmptyList)
    else return .judged false
  else return .irrelevant

/-- Whether the name of a yes-no dimension starts with `is_`. -/
def yesNoName (field : Field) : Except Fault Verdict := do
  if ← field.isDimension then
    let type ← field.get "type"
    if type.isText "yesno" then
      let name ← textOf (← field.get "name")
      return .judged ("is_".toList.isPrefixOf name)
    else return .irrelevant
  else return .irrelevant

/-- Whether the name of a count ends with `_count`. -/
def countName (field : Field) : Except Fault Verdict := do
  if ← field.isMeasure then
    let type ← field.get "type"
    if type.isText "count" then
      let name ← textOf (← field.get "name")
      return .judged ("_count".toList.isSuffixOf name)
    else return .irrelevant
  else return .irrelevant

/-- Whether the name of a field has something that is not a capital. -/
def allCaps (field : Field) : Except Fault Verdict := do
  if ← field.isAny then
    let name ← textOf (← field.get "name")
    return .judged (name != Text.upper name)
  else return .irrelevant

/-- Whether a field mentions a phrase in its name or its description. -/
def mentions (field : Field) (phrase : String) : Except Fault Bool := do
  let name ← field.get "name"
  if ← name.has phrase then return true
  else if ← field.hasKey "description" then
    let text ← field.get "description"
    if text.isText "" then return false else text.has phrase
  else return false

/-- Whether a field mentions one of the phrases; it is asked no more after the first. -/
def mentionsAny (field : Field) : List String → Except Fault Bool
  | [] => .ok false
  | phrase :: rest => do
    if ← mentions field phrase then return true else mentionsAny field rest

/-- A phrase in small letters. -/
def smallPhrase (v : Value) : String := String.ofList (Text.lower v.display.toList)

/-- Whether a field keeps to the lexicon. -/
def lexicon (rule : Rule) (field : Field) : Except Fault Verdict := do
  if ← field.isAny then
    match rule.setting? "phrases" with
    | none => .error .phrasesMissing
    | some (.list phrases) => return .judged !(← mentionsAny field (phrases.map smallPhrase))
    | some _ => .error .phrasesNotList
  else return .irrelevant

/-- What a rule says of a field.  A rule about documents looks for the views of the field. -/
def onField (rule : Rule) (field : Field) : Except Fault Verdict :=
  match rule.kind with
  | .description => description field
  | .drillDown => drillDown field
  | .yesNoName => yesNoName field
  | .countName => countName field
  | .allCaps => allCaps field
  | .lexicon => lexicon rule field
  | .oneViewPerFile | .filenameViewnameMatch | .dataSource =>
    if Value.Fields.has field.parameters "has_views" then .error .wrongShape else .error .noMember

end LookmlProject.Rule
