import LookmlProject.Graph.Picture
import LookmlProject.Value.Access
import LookmlProject.Value.Equal

/-!
# Roots from settings

Settings give the roots of a picture as values, and the names of the nodes of such a graph are
values too.  A list of roots is followed along the edges.  A record of roots stands for its keys; it
cannot grow, so an edge that starts at one of them is a fault.
-/

namespace LookmlProject

instance : NodeName Value where
  ofText := .text
  unknown name :=
    match name with
    | .text s => .missingKey s
    | _ => if name.isKey then .missingEntry else .wrongShape
  graphFault? name := if name.isKey then none else some .wrongShape
  pictureFault? name :=
    match name with
    | .null => some .badValue
    | _ => if name.isKey then none else some .wrongShape

namespace Graph

/-- Why an edge cannot be followed from the keys of a record. -/
def stuckFault? (fields : Value.Fields) (edge : Edge Value) : Option Fault :=
  match (Value.record fields).holds edge.1 with
  | .error fault => some fault
  | .ok true => some .noMember
  | .ok false => none

/-- The roots together with what can be reached from them. -/
def lineage (graph : Graph Value) (roots : Value) : Except Fault Value :=
  match roots with
  | .list names => .ok (.list (graph.connected names))
  | .record fields =>
    match graph.edges.findSome? (stuckFault? fields) with
    | some fault => .error fault
    | none => .ok roots
  | _ => .error .noMember

/-- Whether roots stand for the whole graph. -/
def isEverything (roots : Value) : Bool := roots == .list [.text "*"]

/-- A picture or the fault that prevents it, and the nodes that are listed for it. -/
structure Creation where
  listed : List Value
  picture : Except Fault (Picture Value)

/-- The picture for roots: the whole graph, or the part that can be reached from them. -/
def create (graph : Graph Value) (roots : Except Fault Value) : Creation :=
  match graph.pictureFault? with
  | some fault => ⟨[], .error fault⟩
  | none =>
    match roots with
    | .error fault => ⟨[], .error fault⟩
    | .ok roots =>
      if isEverything roots then ⟨[], .ok graph.picture⟩
      else
        match do (← graph.lineage roots).elements with
        | .error fault => ⟨[], .error fault⟩
        | .ok names =>
          ⟨names, if names.all Value.isKey then .ok (graph.picture.restrict names)
            else .error .notNode⟩

end Graph

end LookmlProject
