import NodeWorkflow.Json.Equality
import NodeWorkflow.Json.Items

/-!
# Editor graphs

What a node editor saves: nodes with input slots and widget values, and links from outputs to slots.
The fields are data of any kind; only the shape around them is checked when a graph is read.
-/
namespace NodeWorkflow.Editor

/-- An input of a node, the id of the link that feeds it, and the widget it was made from. -/
structure Slot where
  name : Json
  link : Json
  widget : Json
  deriving DecidableEq

structure Link where
  id : Json
  sourceNode : Json
  sourceOutput : Json
  targetNode : Json
  targetInput : Json
  type : Json
  deriving DecidableEq

structure Node where
  id : Json
  type : Json
  slots : List Slot
  widgets : Json
  title : Json
  deriving DecidableEq

structure Graph where
  nodes : List Node
  links : List Link
  deriving DecidableEq

/-- Fields that are left out of an object if they are null. -/
def optionalField (name : String) (v : Json) : List (String × Json) :=
  if v.isNull then [] else [(name, v)]

namespace Slot

/-- Reads a slot. The widget is named directly or by the name in an object. -/
def ofJson (data : Json) : Except Fault Slot :=
  match data.field? "name" with
  | none => .error (.shape (.badSlot data))
  | some name =>
    let widget := data.field "widget"
    .ok ⟨name, data.field "link", if widget.isObj then widget.field "name" else widget⟩

def toJson (slot : Slot) : Json :=
  .ofFields <| [("name", slot.name), ("link", slot.link)] ++
    if slot.widget.isNull then [] else [("widget", .ofFields [("name", slot.widget)])]

end Slot

namespace Link

def required (data : Json) (name : String) : Except Fault Json :=
  match data.field? name with
  | some v => .ok v
  | none => .error (.shape (.linkLacks name data))

/-- Reads a link: an object, or a list of five items or more. -/
def ofJson (data : Json) : Except Fault Link :=
  match data with
  | .obj _ => do
    let id ← required data "id"
    let sourceNode ← required data "origin_id"
    let sourceOutput ← required data "origin_slot"
    let targetNode ← required data "target_id"
    let targetInput ← required data "target_slot"
    return ⟨id, sourceNode, sourceOutput, targetNode, targetInput, data.field "type"⟩
  | .list (id :: sourceNode :: sourceOutput :: targetNode :: targetInput :: rest) =>
    .ok ⟨id, sourceNode, sourceOutput, targetNode, targetInput, rest.headD .null⟩
  | _ => .error (.shape (.badLink data))

def toJson (link : Link) : Json :=
  .list [link.id, link.sourceNode, link.sourceOutput, link.targetNode, link.targetInput, link.type]

end Link

namespace Node

/-- Reads a node. Inputs that count as false stand for no slots, and such a type for no type. -/
def ofJson (data : Json) : Except Fault Node :=
  match data.field? "id" with
  | none => .error (.shape (.badNode data))
  | some id => do
    let slots ← match (data.field "inputs").orElse (.list []) with
      | .list slots => slots.mapM Slot.ofJson
      | _ => .error (.shape (.slotsNotList id))
    return ⟨id, (data.field "type").orElse (.str ""), slots, data.field "widgets_values",
      data.field "title"⟩

def toJson (node : Node) : Json :=
  .ofFields <| [("id", node.id), ("type", node.type),
      ("inputs", .list (node.slots.map Slot.toJson))] ++
    optionalField "widgets_values" node.widgets ++ optionalField "title" node.title

end Node

namespace Graph

/-- Reads a graph: its nodes, which must be a list, and then its links, if there are any. -/
def ofJson (data : Json) : Except Fault Graph := do
  if !data.isObj then throw .notObject
  let .list nodes := data.field "nodes" | throw (.shape .nodesNotList)
  let links := data.field "links"
  let nodes ← nodes.mapM Node.ofJson
  let links ← if links.truthy then links.items else pure []
  return ⟨nodes, ← links.mapM Link.ofJson⟩

def toJson (graph : Graph) : Json :=
  .ofFields [("nodes", .list (graph.nodes.map Node.toJson)),
    ("links", .list (graph.links.map Link.toJson))]

def node? (graph : Graph) (id : Json) : Option Node :=
  graph.nodes.find? fun node => node.id.same id

def insertId (ids : List Scalar) (id : Scalar) : List Scalar :=
  if ids.any (·.agrees id) then ids else ids ++ [id]

def nodeIds (graph : Graph) : Except Fault (List Scalar) := do
  let ids ← graph.nodes.mapM fun node => node.id.key
  return ids.foldl insertId []

/-- The links by id; of links with one id the last counts. -/
def linksById (graph : Graph) : Except Fault (Entries Link) := do
  let entries ← graph.links.mapM fun link => return (← link.id.key, link)
  return Entries.putAll entries []

end Graph
end NodeWorkflow.Editor
