import NodeWorkflow.Parameter.Spec

/-!
# Requests

What the service is asked: requests as they arrive, its routes, and the calls of routes that
requests become once their bodies are read.
-/
namespace NodeWorkflow.Service

structure Request where
  /-- The method in capitals. -/
  method : String
  /-- What stands between the slashes of the path. -/
  steps : List String
  body : Option String

structure CompileRequest where
  workflow : Json
  uiTypes : Option (List String) := none
  zeroIndexOutputs : Option Bool := none
  normalize : Bool := true

def textOrNull : Option String → Json
  | some s => .str s
  | none => .null

structure SpecRequest where
  nodeType : String
  primaryPath : Option String := none
  fallbackPath : Option String := none
  type : String := "string"
  conditions : Option (Entries String) := none
  description : String := ""

/-- The data that the specification is read from again. -/
def SpecRequest.toJson (spec : SpecRequest) : Json :=
  .ofFields [("node_type", .str spec.nodeType), ("primary_path", textOrNull spec.primaryPath),
    ("fallback_path", textOrNull spec.fallbackPath), ("type", .str spec.type),
    ("when", match spec.conditions with
      | some entries => .obj (entries.map fun e => (e.1, .str e.2))
      | none => .null),
    ("description", .str spec.description)]

structure InjectRequest where
  workflow : Json
  values : Json
  parameters : Entries SpecRequest

inductive Route where
  | compile
  | validate
  | inject
  | summary
  | templates
  | template (name : String)
  | payload (name : String)

def Route.method : Route → String
  | .templates | .template _ => "GET"
  | _ => "POST"

/-- A call of a route with the body that was sent. -/
inductive Invocation where
  | compile (request : CompileRequest)
  | validate (workflow : Json)
  | inject (request : InjectRequest)
  | summary (workflow : Json)
  | templates
  | template (name : String)
  | payload (name : String) (parameters : Json)

def Invocation.route : Invocation → Route
  | .compile _ => .compile
  | .validate _ => .validate
  | .inject _ => .inject
  | .summary _ => .summary
  | .templates => .templates
  | .template name => .template name
  | .payload name _ => .payload name

end NodeWorkflow.Service
