import LookmlProject.Graph.Basic

/-!
# What can be reached

From some roots, the edges are walked in rounds.  An edge whose source is already reached adds its
target and is taken off the list of edges: the first edge equal to it goes, and the edge after it is
passed over until the next round.  Rounds follow one another until one adds nothing.

A node is listed once for every edge that leads to it from a node that can be reached.
-/

namespace LookmlProject.Graph

variable {Name : Type} [BEq Name]

/-- The state of a walk: the nodes listed so far, the edges not yet taken, and whether the round has
added a node. -/
structure Walk (Name : Type) where
  listed : List Name
  left : List (Edge Name)
  changed : Bool

/-- One round: `passed` are the edges that the round has left behind it, the others are ahead. -/
def round (listed : List Name) (passed : List (Edge Name)) (changed : Bool) :
    List (Edge Name) → Walk Name
  | [] => ⟨listed, passed, changed⟩
  | [edge] =>
    if listed.contains edge.1 then ⟨listed ++ [edge.2], (passed ++ [edge]).erase edge, true⟩
    else ⟨listed, passed ++ [edge], changed⟩
  | edge :: next :: rest =>
    if listed.contains edge.1 then
      round (listed ++ [edge.2]) ((passed ++ [edge]).erase edge ++ [next]) true rest
    else round listed (passed ++ [edge]) changed (next :: rest)

/-- Rounds until one adds nothing; a round that adds something takes an edge off. -/
def rounds : Nat → List Name → List (Edge Name) → List Name
  | 0, listed, _ => listed
  | fuel + 1, listed, edges =>
    let walk := round listed [] false edges
    if walk.changed then rounds fuel walk.listed walk.left else walk.listed

/-- The roots, and the targets of all edges that can be reached from them. -/
def connected (graph : Graph Name) (roots : List Name) : List Name :=
  rounds (graph.edges.length + 1) roots graph.edges

end LookmlProject.Graph
