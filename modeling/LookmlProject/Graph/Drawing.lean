import LookmlProject.Graph.Roots
import LookmlProject.Value.Order

/-!
# Drawings

A drawing is an order to the drawing program: nodes with a colour for each, the sizes and the title,
and the file for the image.
-/

namespace LookmlProject

/-- An order to draw; the nodes stand in order. -/
structure Drawing where
  nodes : List (Value × String)
  fileName : Value
  title : Value
  nodeSize : Value
  labelFontSize : Value
  textAngle : Value
  imageWidth : Value
  imageHeight : Value

namespace Drawing

/-- The colour of a kind of nodes. -/
def colour : NodeKind → String
  | .model => "#b3cde3"
  | .explore => "#ccebc5"
  | .view => "#decbe4"
  | .orphan => "#FFA500"

/-- The names of the options of a drawing, in order, with their values where they need not be
given.  The first is for the nodes. -/
def options : List (String × Option Value) := [
  ("g", none), ("filename", none), ("title", none), ("node_size", some (.int 500)),
  ("label_font_size", some (.int 12)), ("text_angle", some (.int 0)),
  ("image_width", some (.int 16)), ("image_height", some (.int 12))]

/-- The values of the options from those given by position and those given by name.  None may be
given twice, and none that does not exist. -/
def bind (positional : List Value) (named : Value.Fields) : Except Fault Value.Fields :=
  let names := options.map (·.1)
  if names.length < positional.length then .error .wrongShape
  else
    let first := names.zip positional
    if named.any fun n => !names.contains n.1 || Value.Fields.has first n.1 then .error .wrongShape
    else
      let given := first ++ named
      options.mapM fun (name, initial) =>
        match Value.Fields.get? given name, initial with
        | some v, _ => .ok (name, v)
        | none, some v => .ok (name, v)
        | none, none => .error .wrongShape

/-- The colours of nodes; every node has to be known. -/
def colours {Name : Type} [BEq Name] [NodeName Name] (graph : Graph Name) :
    List Name → Except Fault (List (Name × String))
  | [] => .ok []
  | name :: rest => do
    match graph.kind? name with
    | none => .error (NodeName.unknown name)
    | some kind => return (name, colour kind) :: (← colours graph rest)

/-- Coloured nodes in order. -/
def inOrder (nodes : List (Value × String)) : Except Fault (List (Value × String)) := do
  let pairs ← Value.sorted (nodes.map fun n => .list [n.1, .text n.2])
  return pairs.filterMap fun pair =>
    match pair with
    | .list [name, .text shade] => some (name, shade)
    | _ => none

/-- The names of the nodes, each once. -/
def labels (drawing : Drawing) : List Value := (drawing.nodes.map (·.1)).eraseDups

/-- The nodes of a picture as an option of a drawing. -/
def nodesOption (picture : Picture Value) : Value := .list picture.nodes

/-- The order to draw nodes of a graph, with options by position and by name. -/
def plan (graph : Graph Value) (positional : List Value) (named : Value.Fields) :
    Except Fault Drawing := do
  let values ← bind positional named
  let value (name : String) : Value := (Value.Fields.get? values name).getD .null
  let nodes ← colours graph (← (value "g").elements)
  return {
    nodes := ← inOrder nodes
    fileName := value "filename"
    title := value "title"
    nodeSize := value "node_size"
    labelFontSize := value "label_font_size"
    textAngle := value "text_angle"
    imageWidth := value "image_width"
    imageHeight := value "image_height" }

end Drawing

end LookmlProject
