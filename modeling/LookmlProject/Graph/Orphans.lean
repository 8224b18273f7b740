import LookmlProject.Graph.Declarations
import LookmlProject.Graph.Reach

/-!
# Orphans

A view from which no explore can be reached is an orphan.  Views that an explore uses at once need
no walk.
-/

namespace LookmlProject.Graph

variable {Name : Type} [BEq Name]

/-- Views that no explore uses at once. -/
def candidates (graph : Graph Name) : List Name :=
  let used := graph.viewToExplore.map (·.1)
  (graph.nodes.filter fun n => n.2 = .view && !used.contains n.1).map (·.1)

/-- Whether some node of a list is an explore; every node of the list has to be known. -/
def anyExplore [NodeName Name] (graph : Graph Name) : List Name → Except Fault Bool
  | [] => .ok false
  | name :: rest =>
    match graph.kind? name with
    | none => .error (NodeName.unknown name)
    | some kind =>
      match graph.anyExplore rest with
      | .error fault => .error fault
      | .ok found => .ok (kind = .explore || found)

/-- Marks the orphans among some views, one after the other. -/
def tagAmong [NodeName Name] (graph : Graph Name) : List Name → Change Name
  | [] => ⟨graph, none⟩
  | view :: rest =>
    match graph.anyExplore (graph.connected [view]) with
    | .error fault => ⟨graph, some fault⟩
    | .ok true => graph.tagAmong rest
    | .ok false => (graph.addNode view .orphan).tagAmong rest

/-- Marks the orphans.  What an explore uses has to be a node. -/
def tagOrphans [NodeName Name] (graph : Graph Name) : Change Name :=
  match graph.viewToExplore.findSome? fun edge => NodeName.graphFault? edge.1 with
  | some fault => ⟨graph, some fault⟩
  | none => graph.tagAmong graph.candidates

/-- The nodes that are marked as orphans. -/
def orphans (graph : Graph Name) : List Name :=
  (graph.nodes.filter fun n => n.2 = .orphan).map (·.1)

end LookmlProject.Graph
