import LookmlProject.Graph.Reach

/-!
# Pictures

A picture is what is drawn of a graph: all of it, or the part that can be reached from some roots.
Its edges have weights, four for the use of a view or an explore and eight for inheritance; of
several edges between the same nodes the last gives the weight.
-/

namespace LookmlProject

/-- Nodes and weighted edges. -/
structure Picture (Name : Type) where
  nodes : List Name
  edges : List (Edge Name × Nat)

namespace Picture

variable {Name : Type} [BEq Name]

/-- Nodes with one more, unless it is there. -/
def addNode (nodes : List Name) (name : Name) : List Name :=
  if nodes.contains name then nodes else nodes ++ [name]

/-- Edges with a weight set for one of them. -/
def setWeight : List (Edge Name × Nat) → Edge Name → Nat → List (Edge Name × Nat)
  | [], edge, weight => [(edge, weight)]
  | (e, w) :: rest, edge, weight =>
    if e == edge then (e, weight) :: rest else (e, w) :: setWeight rest edge weight

/-- Adds an edge together with its nodes. -/
def addEdge (weight : Nat) (picture : Picture Name) (edge : Edge Name) : Picture Name :=
  ⟨addNode (addNode picture.nodes edge.1) edge.2, setWeight picture.edges edge weight⟩

/-- The part of a picture with the given nodes. -/
def restrict (picture : Picture Name) (names : List Name) : Picture Name :=
  ⟨picture.nodes.filter names.contains,
    picture.edges.filter fun e => names.contains e.1.1 && names.contains e.1.2⟩

end Picture

namespace Graph

variable {Name : Type} [BEq Name]

/-- The whole graph as a picture. -/
def picture (graph : Graph Name) : Picture Name :=
  let start : Picture Name := ⟨graph.nodes.map (·.1), []⟩
  let used := (graph.exploreToModel ++ graph.viewToExplore).foldl (Picture.addEdge 4) start
  (graph.exploreToExplore ++ graph.viewToView).foldl (Picture.addEdge 8) used

/-- Why there is no picture of a graph: the fault of the first name in it that cannot stand in a
picture. -/
def pictureFault? [NodeName Name] (graph : Graph Name) : Option Fault :=
  (graph.nodes.map (·.1) ++ graph.edges.flatMap fun e => [e.1, e.2]).findSome?
    NodeName.pictureFault?

end Graph

end LookmlProject
