import NodeWorkflow.Fault
import NodeWorkflow.Validation.Cycle

/-!
# Validation of execution graphs

A graph is checked node by node for its structure, then for references to nodes that are missing,
and last for cycles. Every finding is an issue; a graph without issues is valid.
-/
namespace NodeWorkflow.Validation

inductive Issue where
  | notObject
  | shape (cause : ShapeFault)
  | dangling (node target : String) (input : Scalar)
  | cyclic

def Issue.message : Issue → String
  | .notObject => "Workflow must be an object"
  | .shape cause => cause.message
  | .dangling node target input =>
    s!"Node {node} references non-existent node {target} in input {input.text}"
  | .cyclic => "Workflow contains a cycle"

def nodeFaults (id : Scalar) (node : Json) : List ShapeFault :=
  if !node.isObj then [.nodeNotObject id.text]
  else
    let unnamed := if (node.field "class_type").truthy then [] else [.classMissing id.text]
    let inputs := node.field "inputs"
    unnamed ++ if inputs.isNull || inputs.isObj then [] else [.inputsNotObject id.text]

def structureFaults (nodes : Entries Json) : List ShapeFault :=
  nodes.flatMap fun e => nodeFaults e.1 e.2

/-- The references that name no node of the graph, in order. -/
def danglingIssues (nodes : Entries Json) : List Issue :=
  let ids := nodeIds nodes
  nodes.flatMap fun (id, node) => node.nodeInputs.filterMap fun (input, v) =>
    v.reference?.bind fun r =>
      if ids.contains r.node then none else some (.dangling id.text r.node input)

def issues : Json → List Issue
  | .obj nodes =>
    (structureFaults nodes).map .shape ++ danglingIssues nodes ++
      if hasCycle nodes then [.cyclic] else []
  | _ => [.notObject]

def isValid (workflow : Json) : Bool := (issues workflow).isEmpty

def errors (workflow : Json) : List String := (issues workflow).map Issue.message

end NodeWorkflow.Validation
