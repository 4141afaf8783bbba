import NodeWorkflow.Compile.Workflow
import NodeWorkflow.Json.Nesting

/-!
# Compilation of deep data

A compilation copies the widget values of the nodes of an editor graph, and the whole nodes of an
execution graph. Copying stops at data that nests too deep. An overrun is a compilation that meets
such data: it does and reports what comes before, which may hold a fault of its own, and ends there.
-/
namespace NodeWorkflow.Compile
open Editor

/-- Whether an entry of an execution graph can be copied. What is no object is never copied. -/
def isCopyable (levels : Nat) (e : Scalar × Json) : Bool := !e.2.isObj || e.2.nestsWithin levels

def executionOverrun? (levels : Nat) : Json → Option (Traced Json)
  | .obj nodes =>
    if nodes.all (isCopyable levels) then none
    else some do
      let _ ← completeNodes (nodes.takeWhile (isCopyable levels)) []
      Traced.fail .tooDeep
  | _ => none

/-- Checks a graph that is execution-shaped already and may hold nodes too deep to copy. -/
def passThroughWithin (levels : Nat) (data : Json) : Traced Json :=
  (executionOverrun? levels data).getD (passThrough data)

/-- How the compilation of an editor graph overruns, if it does. The node with the deep widget
values still has its class checked and its slots resolved. -/
def graphOverrun? (levels : Nat) (options : Options) (graph : Graph) : Option (Traced Json) :=
  let isCopyable (node : Node) := node.widgets.nestsWithin levels
  match graph.survivors options.uiTypes with
  | .error _ => none
  | .ok filtered => match filtered.nodes.dropWhile isCopyable with
    | [] => none
    | node :: _ => some do
      Traced.report (graph.filterEvents filtered)
      let surviving ← filtered.nodeIds
      let links ← filtered.linksById
      let _ ← compileNodes options links surviving (filtered.nodes.takeWhile isCopyable) []
      let _ ← compileNode { options with normalizers := [] } links surviving node
      Traced.fail .tooDeep

def editorOverrun? (levels : Nat) (options : Options) (data : Json) : Option (Traced Json) :=
  match Graph.ofJson data with
  | .error _ => none
  | .ok graph => graphOverrun? levels options graph

/-- How the compilation of a workflow overruns, if it does. -/
def overrun? (levels : Nat) (options : Options) (data : Json) : Option (Traced Json) :=
  match formatOf data with
  | .error _ => none
  | .ok .editor => editorOverrun? levels options data
  | .ok .execution => executionOverrun? levels data

/-- Compiles a workflow that may hold data too deep to copy. -/
def compileWithin (levels : Nat) (options : Options) (data : Json) : Traced Json :=
  (overrun? levels options data).getD (compileWorkflow options data)

end NodeWorkflow.Compile
