import NodeWorkflow.Parameter.Spec

/-!
# Templates

A template is a named workflow with the specifications of its parameters.
-/
namespace NodeWorkflow

structure Template where
  name : Json
  workflow : Json
  description : Json
  parameters : Registry

namespace Template

def required (data : Json) (name : String) : Except Fault Json :=
  match data with
  | .obj _ => match data.field? name with
    | some v => .ok v
    | none => .error (.keyMissing name)
  | _ => .error .notIndexable

/-- Reads a template. Description and parameters may be left out. -/
def ofJson (data : Json) : Except Fault Template := do
  let name ← required data "name"
  let workflow ← required data "workflow"
  let parameters ← Registry.ofJson ((data.field? "parameters").getD (.obj []))
  return ⟨name, workflow, (data.field? "description").getD (.str ""), parameters⟩

end Template
end NodeWorkflow
