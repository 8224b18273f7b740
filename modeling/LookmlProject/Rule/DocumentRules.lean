import LookmlProject.Lookml.Document
import LookmlProject.Rule.Basic

/-!
# Rules about documents

They are about documents with views.

* The first view says where its data comes from.
* There is one view only.
* The first view is named like the file.
-/

namespace LookmlProject.Rule

open Lookml

/-- Whether the first view says where its data comes from. -/
def dataSource (doc : Document) : Except Fault Verdict := do
  if doc.hasViews then
    let view ← doc.views.nth 0
    if ← view.has "sql_table_name" then return .judged true
    else return .judged (← view.has "derived_table")
  else return .irrelevant

/-- Whether there is one view only. -/
def oneViewPerFile (doc : Document) : Except Fault Verdict := do
  if doc.hasViews then return .judged (decide ((← doc.views.length) ≤ 1))
  else return .irrelevant

/-- Whether the first view is named like the file. -/
def filenameViewnameMatch (doc : Document) : Except Fault Verdict := do
  if doc.hasViews then
    let name ← (← doc.views.nth 0).lookup "name"
    return .judged (name.isText doc.baseName)
  else return .irrelevant

/-- What a rule says of a document.  A rule about fields asks for a kind that documents lack. -/
def onDocument (rule : Rule) (doc : Document) : Except Fault Verdict :=
  match rule.kind with
  | .dataSource => dataSource doc
  | .oneViewPerFile => oneViewPerFile doc
  | .filenameViewnameMatch => filenameViewnameMatch doc
  | .description | .drillDown | .yesNoName | .countName | .allCaps | .lexicon => .error .noMember

end LookmlProject.Rule
