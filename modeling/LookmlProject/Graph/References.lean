/-!
# References in SQL

The SQL of a derived table refers to the table of a view by `$`, an opening brace, the name of the
view, `.SQL_TABLE_NAME` and a closing brace.  Whatever stands between an opening and the next closing
brace belongs together, so an opening inside it opens nothing.
-/

namespace LookmlProject.Graph

/-- What stands after the name in a reference. -/
def tableMark : List Char := ".SQL_TABLE_NAME".toList

/-- The name in the text of a reference: what stands before the mark, if that is something. -/
def referenceName? (text : List Char) : Option (List Char) :=
  if tableMark.isSuffixOf text then
    match text.take (text.length - tableMark.length) with
    | [] => none
    | name => some name
  else none

/-- The names of all references, in order.  The text since the last opening is carried along,
nearest first. -/
def referencesFrom : Option (List Char) → List Char → List (List Char)
  | none, '$' :: '\x7b' :: rest => referencesFrom (some []) rest
  | none, _ :: rest => referencesFrom none rest
  | some text, '\x7d' :: rest =>
    match referenceName? text.reverse with
    | some name => name :: referencesFrom none rest
    | none => referencesFrom none rest
  | some text, c :: rest => referencesFrom (some (c :: text)) rest
  | _, [] => []

/-- The names of the views that a SQL text refers to, each once. -/
def references (sql : String) : List String :=
  ((referencesFrom none sql.toList).map String.ofList).eraseDups

end LookmlProject.Graph
