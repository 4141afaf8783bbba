import NodeWorkflow.Compile.EditorGraph

/-!
# Compilation of workflows

A workflow is an editor graph, which is compiled, or a graph that is execution-shaped already, which
is checked and completed.
-/
namespace NodeWorkflow.Compile
open Editor

inductive Format where
  | editor
  | execution
  deriving DecidableEq

def Format.name : Format → String
  | .editor => "editor"
  | .execution => "execution"

/-- A workflow with a list of nodes is an editor graph, one without nodes an execution graph. -/
def formatOf (data : Json) : Except Fault Format :=
  if !data.isObj then .error (.shape .notWorkflow)
  else match data.field? "nodes" with
    | none => .ok .execution
    | some (.list _) => .ok .editor
    | some _ => .error (.shape .notWorkflow)

/-- Takes the type of a node for its class if it has no class. -/
def promoteType (node : Entries Json) : Entries Json :=
  let class_ := (Json.obj node).field "class_type"
  let type := (Json.obj node).field "type"
  if !class_.truthy && type.truthy then (node.erase (.str "type")).put (.str "class_type") type
  else node

/-- Checks a node of an execution graph; inputs that are missing or null become an empty object. -/
def completeNode (id : String) (data : Json) : Traced Json :=
  match data with
  | .obj entries =>
    let node := promoteType entries
    if !((Json.obj node).field "class_type").truthy then
      ⟨[.classMissing id (.obj node)], .error (.shape (.classMissing id))⟩
    else match (Json.obj node).field "inputs" with
      | .null => .ok (.obj (node.put (.str "inputs") (.obj [])))
      | .obj _ => .ok (.obj node)
      | _ => .fail (.shape (.inputsNotObject id))
  | _ => .fail (.shape (.nodeNotObject id))

def completeNodes : Entries Json → Entries Json → Traced (Entries Json)
  | [], done => .ok done
  | (id, data) :: nodes, done => do
    let node ← completeNode id.text data
    completeNodes nodes (done.put (.str id.text) node)

def passThrough (data : Json) : Traced Json :=
  match data with
  | .obj nodes => do return .obj (← completeNodes nodes [])
  | _ => .fail .notObject

def compileEditorData (options : Options) (data : Json) : Traced Json := do
  let graph ← Graph.ofJson data
  return (← compileGraph options graph).toJson

def compileWorkflow (options : Options) (data : Json) : Traced Json := do
  match ← formatOf data with
  | .editor => compileEditorData options data
  | .execution => passThrough data

end NodeWorkflow.Compile
