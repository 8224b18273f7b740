import LookmlProject.Graph.Drawing
import LookmlProject.Graph.Orphans
import LookmlProject.Settings
import LookmlProject.Store.Glob
import LookmlProject.Value.Display

/-!
# The graph of the documents of a project

The documents that some patterns find are added to the graph one after the other, and then the
orphans are marked.  A run does so for the patterns of the settings and orders a drawing.
-/

namespace LookmlProject.Graph

open Lookml

variable {Name : Type} [NodeName Name]

/-- What the documents found by a pattern add. -/
def declareGlob (store : Store) (glob : Value) : Trail (Addition Name) :=
  Trail.need (do Glob.expand store (← glob.asText)) <|
    Trail.flatMap fun path => Trail.need (Document.load store path) declareDocument

/-- What the documents found by the patterns in a value add. -/
def declareGlobs (store : Store) (globs : Value) : Trail (Addition Name) :=
  Trail.need globs.elements (Trail.flatMap (declareGlob store))

/-- Adds the documents that patterns find and marks the orphans.  A graph that has no node then is a
fault. -/
def extract [BEq Name] (graph : Graph Name) (store : Store) (globs : Value) : Change Name :=
  let change := graph.follow (declareGlobs store globs)
  match change.fault with
  | some _ => change
  | none =>
    if change.graph.nodes.isEmpty then ⟨change.graph, some (.noDocuments globs.display)⟩
    else change.graph.tagOrphans

/-- The result of a run: the graph, the nodes that were listed, and the drawing or a fault. -/
structure RunResult where
  graph : Graph Value
  listed : List Value
  drawing : Except Fault Drawing

/-- The title of a drawing: the patterns and the day. -/
def title (globs : Value) (day : String) : Except Fault String := do
  let texts ← (← globs.elements).mapM Value.asText
  return " ".intercalate texts ++ " as of " ++ day

/-- The order to draw a picture as the settings say.  Their options may replace any of those that
are given here, the nodes included. -/
def planRun (graph : Graph Value) (picture : Picture Value) (settings : Settings) (day : String) :
    Except Fault Drawing := do
  let globs := settings.get "infile_globs"
  let grapher := settings.get "grapher"
  let fileName ← grapher.lookup "output"
  let heading ← title globs day
  let entries ← (← grapher.lookup "options").entries
  let extra ← entries.mapM fun e => do return (← e.1.asText, e.2)
  Drawing.plan graph [] (Value.Fields.ofEntries ([
    ("g", Drawing.nodesOption picture), ("filename", fileName), ("title", .text heading)] ++ extra))

/-- The roots in the settings. -/
def rootsOf (settings : Settings) : Except Fault Value := (settings.get "grapher").lookup "roots"

/-- Adds the documents of the settings, marks the orphans and orders a drawing. -/
def run (graph : Graph Value) (store : Store) (settings : Settings) (day : String) : RunResult :=
  let change := graph.extract store (settings.get "infile_globs")
  match change.fault with
  | some fault => ⟨change.graph, [], .error fault⟩
  | none =>
    let creation := change.graph.create (rootsOf settings)
    ⟨change.graph, creation.listed, do
      planRun change.graph (← creation.picture) settings day⟩

end LookmlProject.Graph
