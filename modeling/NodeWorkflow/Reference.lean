import NodeWorkflow.Json.Basic

/-!
# References

An input of an execution node is a literal or a reference: the output, by its index, of another
node.
-/
namespace NodeWorkflow

structure Reference where
  node : String
  output : Int

namespace Json

/-- Reads a reference: a list of a node id and an integer. A truth value is no integer here. -/
def reference? : Json → Option Reference
  | .list [.str node, .int output] => some ⟨node, output⟩
  | _ => none

def isReference (v : Json) : Bool := v.reference?.isSome

/-- The inputs of an execution node; a node without an object of inputs has none. -/
def nodeInputs (node : Json) : Entries Json :=
  match node.field? "inputs" with
  | some (.obj es) => es
  | _ => []

end Json
end NodeWorkflow
