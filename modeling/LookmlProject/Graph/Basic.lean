import LookmlProject.Fault

/-!
# The graph of a project

The nodes are models, explores and views, and views without an explore are marked as orphans.  Edges
go from what is used to what uses it: from explores to models and from views to explores, and, for
inheritance and derived tables, from explores to explores and from views to views.

Documents name their nodes by texts, but a graph may have names of another type; `NodeName` says
what is asked of them.
-/

namespace LookmlProject

/-- What a node stands for. -/
inductive NodeKind where
  | model
  | explore
  | view
  | orphan
deriving DecidableEq, Repr

/-- The name of a kind of nodes. -/
def NodeKind.name : NodeKind → String
  | .model => "model"
  | .explore => "explore"
  | .view => "view"
  | .orphan => "orphan"

/-- The kind of nodes of a name. -/
def NodeKind.ofName? (name : String) : Option NodeKind :=
  [NodeKind.model, .explore, .view, .orphan].find? fun kind => kind.name == name

/-- What an edge joins. -/
inductive EdgeKind where
  | exploreToModel
  | viewToExplore
  | exploreToExplore
  | viewToView
deriving DecidableEq, Repr

/-- A type of names for nodes. -/
class NodeName (Name : Type) where
  /-- The name that a text is. -/
  ofText : String → Name
  /-- The fault of asking for a node of that name where there is none. -/
  unknown : Name → Fault
  /-- Why a name cannot stand for a node of a graph. -/
  graphFault? : Name → Option Fault
  /-- Why a name cannot stand for a node of a picture. -/
  pictureFault? : Name → Option Fault

instance : NodeName String where
  ofText s := s
  unknown s := .missingKey s
  graphFault? _ := none
  pictureFault? _ := none

/-- An edge from one node to another. -/
abbrev Edge (Name : Type) := Name × Name

/-- Nodes with their kinds, each once, and the edges of the four kinds in the order in which they
came. -/
structure Graph (Name : Type) where
  nodes : List (Name × NodeKind)
  exploreToModel : List (Edge Name)
  viewToExplore : List (Edge Name)
  exploreToExplore : List (Edge Name)
  viewToView : List (Edge Name)

/-- One thing that a declaration adds to a graph. -/
inductive Addition (Name : Type) where
  | node (name : Name) (kind : NodeKind)
  | edge (kind : EdgeKind) (source target : Name)
deriving DecidableEq, Repr

namespace Graph

variable {Name : Type}

/-- The graph without nodes. -/
def empty : Graph Name := ⟨[], [], [], [], []⟩

/-- The kind of a node. -/
def kind? [BEq Name] (graph : Graph Name) (name : Name) : Option NodeKind := graph.nodes.lookup name

/-- The nodes with a kind set for one of them. -/
def setKind [BEq Name] : List (Name × NodeKind) → Name → NodeKind → List (Name × NodeKind)
  | [], name, kind => [(name, kind)]
  | (n, k) :: rest, name, kind =>
    if n == name then (n, kind) :: rest else (n, k) :: setKind rest name kind

/-- Adds a node, or gives a node another kind. -/
def addNode [BEq Name] (graph : Graph Name) (name : Name) (kind : NodeKind) : Graph Name :=
  { graph with nodes := setKind graph.nodes name kind }

/-- Adds an edge. -/
def addEdge (graph : Graph Name) (kind : EdgeKind) (edge : Edge Name) : Graph Name :=
  match kind with
  | .exploreToModel => { graph with exploreToModel := graph.exploreToModel ++ [edge] }
  | .viewToExplore => { graph with viewToExplore := graph.viewToExplore ++ [edge] }
  | .exploreToExplore => { graph with exploreToExplore := graph.exploreToExplore ++ [edge] }
  | .viewToView => { graph with viewToView := graph.viewToView ++ [edge] }

/-- The edges of one kind. -/
def edgesOf (graph : Graph Name) : EdgeKind → List (Edge Name)
  | .exploreToModel => graph.exploreToModel
  | .viewToExplore => graph.viewToExplore
  | .exploreToExplore => graph.exploreToExplore
  | .viewToView => graph.viewToView

/-- All edges, kind by kind. -/
def edges (graph : Graph Name) : List (Edge Name) :=
  graph.exploreToModel ++ graph.viewToExplore ++ graph.exploreToExplore ++ graph.viewToView

/-- Adds one thing. -/
def add [BEq Name] (graph : Graph Name) : Addition Name → Graph Name
  | .node name kind => graph.addNode name kind
  | .edge kind source target => graph.addEdge kind (source, target)

/-- Adds things in order. -/
def addAll [BEq Name] (graph : Graph Name) (additions : List (Addition Name)) : Graph Name :=
  additions.foldl add graph

end Graph

end LookmlProject
