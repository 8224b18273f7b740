import LookmlProject.Graph.Orphans
import LookmlProject.Lint.Row

/-!
# The rule about orphans

The rule gathers the graph of the documents that it is shown, and the path of each document with
views under its base name.  At the end it gives a row for every orphan, with the path that was kept
under the name of the orphan's node.
-/

namespace LookmlProject.Rule

open Lookml

/-- What the rule has gathered. -/
structure NoOrphans where
  graph : Graph String
  paths : Value.Fields

namespace NoOrphans

/-- The name of the rule. -/
def name : String := "NoOrphansRule"

/-- Nothing gathered yet. -/
def start : NoOrphans := ⟨Graph.empty, []⟩

/-- Shows the rule a document. -/
def process (rule : NoOrphans) (doc : Document) : NoOrphans × Option Fault :=
  let change := rule.graph.process doc
  match change.fault with
  | some fault => (⟨change.graph, rule.paths⟩, some fault)
  | none =>
    if doc.hasViews then
      match doc.views.nth 0 with
      | .error fault => (⟨change.graph, rule.paths⟩, some fault)
      | .ok _ => (⟨change.graph, Value.Fields.set rule.paths doc.baseName (.text doc.path)⟩, none)
    else (⟨change.graph, rule.paths⟩, none)

/-- The row about one orphan. -/
def row (paths : Value.Fields) (orphan : String) : Except Fault Lint.DocumentRow := do
  return ⟨← (Value.record paths).lookup orphan, name, false, none⟩

/-- Marks the orphans and gives the rows about them. -/
def finish (rule : NoOrphans) : NoOrphans × Except Fault (List Lint.DocumentRow) :=
  let change := rule.graph.tagOrphans
  let rule : NoOrphans := ⟨change.graph, rule.paths⟩
  match change.fault with
  | some fault => (rule, .error fault)
  | none => (rule, change.graph.orphans.mapM (row rule.paths))

end NoOrphans

end LookmlProject.Rule
