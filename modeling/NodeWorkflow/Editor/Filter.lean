import NodeWorkflow.Event
import NodeWorkflow.Editor.Graph

/-!
# Filtering of editor graphs

Nodes of some types exist for presentation only. The filter drops them and every link with a dropped
end; a path through a dropped node is lost.
-/
namespace NodeWorkflow.Editor

def isAmong (v : Json) (ids : List Scalar) : Except Fault Bool :=
  v.key.map fun a => ids.any (·.agrees a)

/-- Whether both ends of a link are among the ids. The target is looked at only if the source is. -/
def Link.connects (ids : List Scalar) (link : Link) : Except Fault Bool := do
  if ← isAmong link.sourceNode ids then isAmong link.targetNode ids else return false

namespace Graph

/-- The nodes of other types than those of presentation, and the links between them. -/
def survivors (uiTypes : List Scalar) (graph : Graph) : Except Fault Graph := do
  let nodes ← graph.nodes.filterM fun node => return !(← isAmong node.type uiTypes)
  let ids ← nodeIds ⟨nodes, []⟩
  let links ← graph.links.filterM (Link.connects ids)
  return ⟨nodes, links⟩

def filterEvents (graph filtered : Graph) : List Event :=
  let dropped := graph.nodes.length - filtered.nodes.length
  if dropped = 0 then []
  else [.filtered dropped (graph.links.length - filtered.links.length) filtered.nodes.length]

def filter (uiTypes : List Scalar) (graph : Graph) : Traced Graph :=
  match graph.survivors uiTypes with
  | .error fault => .fail fault
  | .ok filtered => ⟨graph.filterEvents filtered, .ok filtered⟩

end Graph
end NodeWorkflow.Editor
