import NodeWorkflow.Compile.Normalizer

/-!
# Compilation of editor graphs

An editor graph is filtered, its slots are resolved, and the inputs are normalized by class. Every
node that survives becomes an entry under its id as text.
-/
namespace NodeWorkflow.Compile
open Editor

structure Options where
  /-- The types of the nodes that exist for presentation only. -/
  uiTypes : List Scalar
  normalizers : List (String × Normalizer)
  /-- Whether every output counts as the first of its node. -/
  zeroIndex : Bool

def Options.plain : Options := ⟨[], [], false⟩

def Options.normalizer? (options : Options) : Scalar → Option Normalizer
  | .str type => options.normalizers.lookup type
  | _ => none

/-- A compiled node, with the sources of its inputs. -/
structure ExecutionNode where
  type : Scalar
  inputs : Entries Source
  widgets : Json
  title : Json

/-- The node as data. A title that counts as false is left out. -/
def ExecutionNode.toJson (node : ExecutionNode) : Json :=
  .ofFields <| [("class_type", .scalar node.type), ("inputs", .obj (inputValues node.inputs))]
    ++ optionalField "widgets_values" node.widgets
    ++ if node.title.truthy then [("_meta", .ofFields [("title", node.title)])] else []

/-- A compiled graph: the nodes by their ids. -/
abbrev ExecutionGraph := Entries ExecutionNode

def ExecutionGraph.toJson (graph : ExecutionGraph) : Json :=
  .obj (graph.map fun e => (e.1, e.2.toJson))

/-- Stores the entries that the normalizer of the class gives over the inputs. -/
def normalize (options : Options) (node : ExecutionNode) : Except Fault ExecutionNode :=
  match options.normalizer? node.type with
  | none => .ok node
  | some normalizer => (normalizer.updates node.toJson).map fun updates =>
    { node with inputs := Entries.putAll updates node.inputs }

def compileNode (options : Options) (links : Entries Link) (surviving : List Scalar) (node : Node) :
    Traced ExecutionNode := do
  if !node.type.truthy then Traced.fail (.shape (.classMissing node.id.text))
  let type ← node.type.key
  let inputs ← resolveInputs links surviving options.zeroIndex node
  normalize options ⟨type, inputs, node.widgets, node.title⟩

def compileNodes (options : Options) (links : Entries Link) (surviving : List Scalar) :
    List Node → ExecutionGraph → Traced ExecutionGraph
  | [], done => .ok done
  | node :: nodes, done => do
    let compiled ← compileNode options links surviving node
    compileNodes options links surviving nodes (done.put (.str node.id.text) compiled)

def compileGraph (options : Options) (graph : Graph) : Traced ExecutionGraph := do
  let filtered ← graph.filter options.uiTypes
  let surviving ← filtered.nodeIds
  let links ← filtered.linksById
  let compiled ← compileNodes options links surviving filtered.nodes []
  Traced.report [.compiled graph.nodes.length compiled.length]
  return compiled

end NodeWorkflow.Compile
