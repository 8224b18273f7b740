import LookmlProject.Graph.Basic
import LookmlProject.Graph.References
import LookmlProject.Lookml.Document
import LookmlProject.Trail
import LookmlProject.Value.Access

/-!
# What documents add to the graph

A view adds its node and edges from the views that its SQL refers to and that it extends.  An explore
adds its node and edges to its model, from the explores that it extends, from its view and from the
views that it joins.  A document adds its views; if it has none, a model adds itself and its
explores, and any other document its explores.
-/

namespace LookmlProject.Graph

open Lookml

variable {Name : Type} [NodeName Name]

/-- The node of a view. -/
def viewNode (name : String) : Name := NodeName.ofText (name ++ ".view")

/-- The node of an explore. -/
def exploreNode (name : String) : Name := NodeName.ofText (name ++ ".explore")

/-- The node of a model. -/
def modelNode (name : String) : Name := NodeName.ofText (name ++ ".model")

/-- A view and an edge from it to another view. -/
def viewBefore (target : Name) (name : String) : List (Addition Name) :=
  [.node (viewNode name) .view, .edge .viewToView (viewNode name) target]

/-- A view and an edge from it to an explore. -/
def viewIn (target : Name) (name : String) : List (Addition Name) :=
  [.node (viewNode name) .view, .edge .viewToExplore (viewNode name) target]

/-- An explore and an edge from it to an explore that extends it. -/
def exploreBefore (target : Name) (name : String) : List (Addition Name) :=
  [.node (exploreNode name) .explore, .edge .exploreToExplore (exploreNode name) target]

/-- What each name in a walk through a value adds. -/
def eachName (names : Value) (adds : String → List (Addition Name)) : Trail (Addition Name) :=
  Trail.need names.elements <|
    Trail.flatMap fun name => Trail.need name.asText fun s => .of (adds s)

/-- What the entry of a record under a key adds, where it is there. -/
def underKey (declaration : Value) (key : String) (adds : Value → Trail (Addition Name))
    (otherwise : Trail (Addition Name)) : Trail (Addition Name) :=
  Trail.need (declaration.has key) fun
    | true => Trail.need (declaration.lookup key) adds
    | false => otherwise

/-- The SQL of the derived table of a view, null where there is none. -/
def derivedSql (view : Value) : Except Fault Value :=
  match view with
  | .record fields =>
    match (Value.Fields.get? fields "derived_table").getD (.record []) with
    | .record table => .ok ((Value.Fields.get? table "sql").getD .null)
    | _ => .error .noMember
  | _ => .error .noMember

/-- What a view adds. -/
def declareView (view : Value) : Trail (Addition Name) :=
  Trail.need (do (← view.lookup "name").asText) fun name =>
    let target : Name := viewNode name
    Trail.of [.node target .view] ++
    (Trail.need (derivedSql view) fun sql =>
      if sql.truthy then
        Trail.need sql.asText fun text => .of ((references text).flatMap (viewBefore target))
      else .nil) ++
    underKey view "extends" (fun parents => eachName parents (viewBefore target)) .nil

/-- What a join of an explore adds. -/
def declareJoin (target : Name) (join : Value) : Trail (Addition Name) :=
  Trail.need (join.has "from") fun given =>
    Trail.need (do (← join.lookup (if given then "from" else "name")).asText) fun name =>
      .of (viewIn target name)

/-- What the view of an explore adds: the one it names, or the one of its own name if it extends no
other explore. -/
def declareBase (target : Name) (explore : Value) : Trail (Addition Name) :=
  let named (v : Value) : Trail (Addition Name) :=
    Trail.need v.asText fun name => .of (viewIn target name)
  underKey explore "from" named <|
    underKey explore "view_name" named <|
      Trail.need (explore.has "extends") fun
        | true => .nil
        | false => Trail.need (explore.lookup "name") named

/-- What an explore of a model, or of none, adds. -/
def declareExplore (model : Option Name) (explore : Value) : Trail (Addition Name) :=
  Trail.need (do (← explore.lookup "name").asText) fun name =>
    let target : Name := exploreNode name
    Trail.of [.node target .explore] ++
    (match model with
      | some m => Trail.of [.edge .exploreToModel target m]
      | none => .nil) ++
    underKey explore "extends" (fun parents => eachName parents (exploreBefore target)) .nil ++
    declareBase target explore ++
    underKey explore "joins"
      (fun joins => Trail.need joins.elements (Trail.flatMap (declareJoin target))) .nil

/-- What a document adds. -/
def declareDocument (doc : Document) : Trail (Addition Name) :=
  if doc.hasViews then Trail.need doc.views.elements (Trail.flatMap declareView)
  else if doc.kind = .model then
    let model : Name := modelNode doc.baseName
    Trail.of [.node model .model] ++
      (if doc.hasExplores then
        Trail.need doc.explores.elements (Trail.flatMap (declareExplore (some model)))
      else .nil)
  else if doc.hasExplores then
    Trail.need doc.explores.elements (Trail.flatMap (declareExplore none))
  else .stop (.nothingDeclared doc.baseName doc.kind.name doc.path)

/-- The lines that are shown with a fault. -/
def notices : Fault → List String
  | .nothingDeclared baseName kind _ => [baseName, kind]
  | _ => []

/-- A graph after some work, and the fault that ended the work early. -/
structure Change (Name : Type) where
  graph : Graph Name
  fault : Option Fault

/-- Adds what a trail left, also if the trail ended early. -/
def follow [BEq Name] (graph : Graph Name) (trail : Trail (Addition Name)) : Change Name :=
  ⟨graph.addAll trail.steps, trail.fault⟩

/-- Adds a document to a graph. -/
def process [BEq Name] (graph : Graph Name) (doc : Document) : Change Name :=
  graph.follow (declareDocument doc)

end LookmlProject.Graph
